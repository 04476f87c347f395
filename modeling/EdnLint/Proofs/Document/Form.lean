import EdnLint.Document.Reader

/-!
# What the reader builds

The reader hands out nodes of one kind only, its forms: a scalar that a lexeme
can write, or a compound around forms, and never a document inside another node.
`Node.Form Q` says so of a node and of everything in it, and that all its places
satisfy `Q`. The places a reader names are those it has been at, so `Q` is left
open: `Reader.step_sound` needs it of the next position only, and `parse_form` of
every position on the way through the text.
-/

namespace EdnLint

/-- An atom that a lexeme can write: a symbol has at least one code point. -/
def Atom.IsWritten : Atom → Prop
  | .symbol name => name ≠ []
  | _ => True

/-- A shape that has forms inside and is itself a form. -/
def Shape.isCompound : Shape → Bool
  | .document | .scalar _ => false
  | _ => true

namespace Node

/-- A form of a document, whose places, and those of the forms inside it, satisfy
`Q`. -/
inductive Form (Q : Position → Prop) : Node → Prop
  | scalar {a : Atom} {start stop : Position} :
      a.IsWritten → Q start → Q stop → Form Q (.mk (.scalar a) start stop [])
  | compound {shape : Shape} {start stop : Position} {forms : List Node} :
      shape.isCompound = true → Q start → Q stop → (∀ n ∈ forms, Form Q n) →
        Form Q (.mk shape start stop forms)

theorem Form.start {Q : Position → Prop} {n : Node} (h : n.Form Q) : Q n.start := by
  cases h <;> assumption

theorem Form.stop {Q : Position → Prop} {n : Node} (h : n.Form Q) : Q n.stop := by
  cases h <;> assumption

theorem Form.forms {Q : Position → Prop} {n : Node} (h : n.Form Q) : ∀ m ∈ n.forms, m.Form Q := by
  cases h with
  | scalar => exact fun m hm => absurd hm List.not_mem_nil
  | compound _ _ _ hforms => exact hforms

end Node

section

variable {Q : Position → Prop}

/-- A form that has begun, with finished forms inside. -/
def Frame.Sound (Q : Position → Prop) : Frame → Prop
  | .collection shape _ start forms =>
      shape.isCompound = true ∧ Q start ∧ ∀ n ∈ forms, n.Form Q
  | .pending shape _ _ start forms =>
      (∀ s, shape = some s → s.isCompound = true) ∧ Q start ∧ ∀ n ∈ forms, n.Form Q

/-- All that has begun or is finished. -/
structure Stack.Sound (Q : Position → Prop) (s : Stack) : Prop where
  frames : ∀ f ∈ s.frames, f.Sound Q
  forms : ∀ n ∈ s.forms, n.Form Q

/-- A lexeme knows where it began, and a token is never empty. -/
def Mode.Sound (Q : Position → Prop) : Mode → Prop
  | .blank | .comment => True
  | .token start read => Q start ∧ read ≠ []
  | .dispatch start | .tag start _ | .symbolic start _ | .backslash start | .character start _
  | .string _ start _ | .escape _ start _ _ | .digits start _ _ _ => Q start

/-- What holds of a reader between any two code points. -/
structure Reader.Sound (Q : Position → Prop) (r : Reader) : Prop where
  position : Q r.position
  mode : r.mode.Sound Q
  stack : r.stack.Sound Q

namespace Stack

theorem sound_empty : empty.Sound Q :=
  ⟨fun _ h => absurd h List.not_mem_nil, fun _ h => absurd h List.not_mem_nil⟩

theorem Sound.push {s : Stack} (hs : s.Sound Q) {f : Frame} (hf : f.Sound Q) :
    (s.push f).Sound Q :=
  ⟨List.forall_mem_cons.mpr ⟨hf, hs.frames⟩, hs.forms⟩

/-- A finished form may finish the wrappers around it, one inside the other. -/
theorem deliverTo_sound {document : List Node} {n : Node} {frames : List Frame}
    (hd : ∀ m ∈ document, m.Form Q) (hn : n.Form Q) (hf : ∀ f ∈ frames, f.Sound Q) :
    (deliverTo document n frames).Sound Q := by
  fun_induction deliverTo document n frames with
  | case1 n => exact ⟨hf, List.forall_mem_cons.mpr ⟨hn, hd⟩⟩
  | case2 n shape closer start forms frames =>
      rw [List.forall_mem_cons] at hf
      obtain ⟨⟨hshape, hstart, hforms⟩, hf⟩ := hf
      refine ⟨List.forall_mem_cons.mpr ⟨⟨hshape, hstart, ?_⟩, hf⟩, hd⟩
      exact List.forall_mem_cons.mpr ⟨hn, hforms⟩
  | case3 n shape part' part later start forms frames =>
      rw [List.forall_mem_cons] at hf
      obtain ⟨⟨hshape, hstart, hforms⟩, hf⟩ := hf
      refine ⟨List.forall_mem_cons.mpr ⟨⟨hshape, hstart, ?_⟩, hf⟩, hd⟩
      exact List.forall_mem_cons.mpr ⟨hn, hforms⟩
  | case4 n shape part start forms frames ih =>
      rw [List.forall_mem_cons] at hf
      obtain ⟨⟨hshape, hstart, hforms⟩, hf⟩ := hf
      refine ih (.compound (hshape shape rfl) hstart hn.stop fun m hm => ?_) hf
      rw [List.mem_reverse] at hm
      exact List.forall_mem_cons.mpr ⟨hn, hforms⟩ m hm
  | case5 n part start forms frames =>
      exact ⟨(List.forall_mem_cons.mp hf).2, hd⟩

theorem Sound.deliver {s : Stack} (hs : s.Sound Q) {n : Node} (hn : n.Form Q) :
    (s.deliver n).Sound Q :=
  deliverTo_sound hs.forms hn hs.frames

theorem Sound.close {s s' : Stack} (hs : s.Sound Q) {c : CodePoint} {p : Position}
    (hp : Q (p.next c)) (h : s.close c p = .ok s') : s'.Sound Q := by
  unfold Stack.close at h
  split at h
  · rename_i shape closer start forms frames hframes
    split at h
    · cases h
      have hf := hs.frames
      rw [hframes, List.forall_mem_cons] at hf
      obtain ⟨⟨hshape, hstart, hforms⟩, hf⟩ := hf
      refine deliverTo_sound hs.forms (.compound hshape hstart hp fun m hm => ?_) hf
      exact hforms m (List.mem_reverse.mp hm)
    · cases h
  · cases h
  · cases h

end Stack

/-- A token that is not empty writes no empty symbol. -/
theorem Scalar.ofToken_isWritten {token : Text} {a : Atom} (ht : token ≠ [])
    (h : ofToken token = .ok a) : a.IsWritten := by
  unfold ofToken at h
  repeat' split at h
  case h_1 result _ =>
      cases result with
      | error e => cases h
      | ok n =>
          cases h
          trivial
  all_goals cases h
  all_goals trivial

theorem Scalar.ofSymbolic?_isWritten {token : Text} {a : Atom}
    (h : ofSymbolic? token = some a) : a.IsWritten := by
  unfold ofSymbolic? at h
  repeat' split at h
  all_goals cases h
  all_goals trivial

namespace Reader

theorem complete_sound {s s' : Stack} {stop : Position} {m : Mode} (hs : s.Sound Q)
    (hstop : Q stop) (hm : m.Sound Q) (h : complete s stop m = .ok s') : s'.Sound Q := by
  cases m with
  | token start read =>
      simp only [complete] at h
      split at h
      · rename_i value hv
        cases h
        have hread : read.reverse ≠ [] := by simpa using hm.2
        exact hs.deliver (.scalar (Scalar.ofToken_isWritten hread hv) hm.1 hstop)
      all_goals cases h
  | tag start read =>
      cases h
      exact hs.push ⟨fun s hs => by cases hs; rfl, hm, fun _ h => absurd h List.not_mem_nil⟩
  | symbolic start read =>
      simp only [complete] at h
      split at h
      · rename_i value hv
        cases h
        exact hs.deliver (.scalar (Scalar.ofSymbolic?_isWritten hv) hm hstop)
      · cases h
  | character start read =>
      simp only [complete] at h
      split at h
      · cases h
        exact hs.deliver (.scalar trivial hm hstop)
      · cases h
  | _ =>
      cases h
      exact hs

theorem begin_sound {s : Stack} {p : Position} {c : CodePoint} {next : Mode × Stack}
    (hs : s.Sound Q) (hp : Q p) (hnext : Q (p.next c)) (h : begin s p c = .ok next) :
    next.1.Sound Q ∧ next.2.Sound Q := by
  have hnil : ∀ n ∈ ([] : List Node), n.Form Q := fun _ h => absurd h List.not_mem_nil
  unfold begin at h
  split at h
  · cases h
    exact ⟨trivial, hs⟩
  split at h
  · cases h
    exact ⟨trivial, hs⟩
  split at h
  · split at h
    · rename_i s' hclose
      cases h
      exact ⟨trivial, hs.close hnext hclose⟩
    · cases h
  split at h
  · rename_i shape closer hopening
    cases h
    refine ⟨trivial, hs.push ⟨?_, hp, hnil⟩⟩
    unfold opening? at hopening
    repeat' split at hopening
    all_goals cases hopening
    all_goals rfl
  repeat' split at h
  all_goals cases h
  · exact ⟨hp, hs⟩
  · exact ⟨hp, hs⟩
  · exact ⟨hp, hs⟩
  · exact ⟨trivial, hs.push ⟨fun s hs => by cases hs; rfl, hp, hnil⟩⟩
  · exact ⟨trivial, hs.push ⟨fun s hs => by cases hs; rfl, hp, hnil⟩⟩
  · exact ⟨⟨hp, List.cons_ne_nil c []⟩, hs⟩

theorem extend_sound {m longer : Mode} {s : Stack} {p : Position} {c : CodePoint}
    {next : Mode × Stack} (hs : s.Sound Q) (hm : m.Sound Q) (hlonger : longer.Sound Q) (hp : Q p)
    (hnext : Q (p.next c)) (h : extend m longer s p c = .ok next) :
    next.1.Sound Q ∧ next.2.Sound Q := by
  unfold extend at h
  split at h
  · split at h
    · rename_i s' hcomplete
      exact begin_sound (complete_sound hs hp hm hcomplete) hp hnext h
    · cases h
  · cases h
    exact ⟨hlonger, hs⟩

theorem dispatch_sound {start : Position} {s : Stack} {c : CodePoint} {next : Mode × Stack}
    (hs : s.Sound Q) (hstart : Q start) (h : dispatch start s c = .ok next) :
    next.1.Sound Q ∧ next.2.Sound Q := by
  have hnil : ∀ n ∈ ([] : List Node), n.Form Q := fun _ h => absurd h List.not_mem_nil
  unfold dispatch at h
  repeat' split at h
  all_goals cases h
  · exact ⟨trivial, hs.push ⟨rfl, hstart, hnil⟩⟩
  · exact ⟨hstart, hs⟩
  · exact ⟨trivial, hs.push ⟨fun s hs => (by cases hs), hstart, hnil⟩⟩
  · exact ⟨hstart, hs⟩
  · exact ⟨hstart, hs⟩

theorem unescape_sound {pattern : Bool} {start place : Position} {read : Text} {c : CodePoint}
    {m : Mode} (hstart : Q start) (h : unescape pattern start read place c = .ok m) :
    m.Sound Q := by
  unfold unescape at h
  repeat' split at h
  all_goals cases h
  all_goals exact hstart

theorem addDigit_sound {start place : Position} {read digits : Text} {c : CodePoint} {m : Mode}
    (hstart : Q start) (h : addDigit start read place digits c = .ok m) : m.Sound Q := by
  simp only [addDigit] at h
  repeat' split at h
  all_goals cases h
  all_goals exact hstart

theorem advance_sound {s : Stack} {p : Position} {c : CodePoint} {m : Mode}
    {next : Mode × Stack} (hs : s.Sound Q) (hm : m.Sound Q) (hp : Q p) (hnext : Q (p.next c))
    (h : advance s p c m = .ok next) : next.1.Sound Q ∧ next.2.Sound Q := by
  cases m with
  | blank => exact begin_sound hs hp hnext h
  | comment =>
      cases h
      dsimp only
      split <;> exact ⟨trivial, hs⟩
  | token start read =>
      refine extend_sound hs hm ?_ hp hnext h
      exact ⟨hm.1, List.cons_ne_nil c read⟩
  | dispatch start => exact dispatch_sound hs hm h
  | tag start read =>
      refine extend_sound hs hm ?_ hp hnext h
      exact hm
  | symbolic start read =>
      refine extend_sound hs hm ?_ hp hnext h
      exact hm
  | backslash start =>
      cases h
      exact ⟨hm, hs⟩
  | character start read =>
      refine extend_sound hs hm ?_ hp hnext h
      exact hm
  | string pattern start read =>
      simp only [advance] at h
      repeat' split at h
      all_goals cases h
      · exact ⟨trivial, hs.deliver (.scalar trivial hm hnext)⟩
      · exact ⟨hm, hs⟩
      · exact ⟨hm, hs⟩
  | escape pattern start read place =>
      simp only [advance] at h
      cases hu : unescape pattern start read place c with
      | error e => simp [hu, Except.map] at h
      | ok m =>
          rw [hu] at h
          cases h
          exact ⟨unescape_sound hm hu, hs⟩
  | digits start read place digits =>
      simp only [advance] at h
      cases hd : addDigit start read place digits c with
      | error e => simp [hd, Except.map] at h
      | ok m =>
          rw [hd] at h
          cases h
          exact ⟨addDigit_sound hm hd, hs⟩

/-- One code point keeps the reader sound. -/
theorem step_sound {r r' : Reader} {c : CodePoint} (hr : r.Sound Q)
    (hnext : Q (r.position.next c)) (h : r.step c = .ok r') : r'.Sound Q := by
  unfold step at h
  split at h
  · rename_i mode stack hadvance
    cases h
    have hsound := advance_sound hr.stack hr.mode hr.position hnext hadvance
    exact ⟨hnext, hsound.1, hsound.2⟩
  · cases h

/-- A text keeps the reader sound if all positions on the way satisfy `Q`. -/
theorem feed_sound {r r' : Reader} {t : Text} (hr : r.Sound Q)
    (hQ : ∀ s, s <+: t → Q (r.position.after s)) (h : r.feed t = .ok r') : r'.Sound Q := by
  induction t generalizing r with
  | nil =>
      cases h
      exact hr
  | cons c t ih =>
      simp only [feed] at h
      split at h
      · rename_i r₁ hstep
        have hnext : Q (r.position.next c) := hQ [c] ⟨t, rfl⟩
        have hposition : r₁.position = r.position.next c :=
          feed_position (t := [c]) (by simp [feed, hstep])
        refine ih (step_sound hr hnext hstep) (fun s hs => ?_) h
        rw [hposition]
        exact hQ (c :: s) (List.cons_prefix_cons.mpr ⟨rfl, hs⟩)
      · cases h

theorem finish_form {r : Reader} {tree : Node} (hr : r.Sound Q) (h : r.finish = .ok tree) :
    tree.shape = .document ∧ ∀ n ∈ tree.forms, n.Form Q := by
  unfold finish at h
  split at h
  any_goals cases h
  split at h
  · rename_i s hcomplete
    have hs := complete_sound hr.stack hr.position hr.mode hcomplete
    split at h
    · rename_i n hdocument
      cases h
      unfold Stack.document at hdocument
      split at hdocument
      any_goals cases hdocument
      exact ⟨rfl, fun m hm => hs.forms m (List.mem_reverse.mp hm)⟩
    · cases h
  · cases h

end Reader

/-- A text that reads gives a document of forms, all at places on the way through
the text. -/
theorem parse_form {t : Text} {tree : Node} (hQ : ∀ s, s <+: t → Q (Position.first.after s))
    (h : parse t = .ok tree) : tree.shape = .document ∧ ∀ n ∈ tree.forms, n.Form Q := by
  unfold parse at h
  split at h
  · rename_i r hfeed
    have hinitial : Reader.initial.Sound Q :=
      ⟨hQ [] List.nil_prefix, trivial, Stack.sound_empty⟩
    exact Reader.finish_form (Reader.feed_sound hinitial hQ hfeed) h
  · cases h

end

end EdnLint
