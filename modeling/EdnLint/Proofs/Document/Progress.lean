import EdnLint.Proofs.Document.CheckedCalls

/-!
# Reading by descent keeps its assumptions

A form is called for only behind the blanks and where no closing delimiter stands, and it
takes its first code point before it calls for another form. So what is proved of a form
may assume that the forms nested in it make progress, as they begin further on
(`FormsFollow`), and what is left of the text bounds the depth of the descent and the
rounds of every loop (`follows_form`).

The main statement is `read_keeps_assumptions`: a checked reader reads what the reader
reads that takes one code point at a time, and no run of it ends in a breach.
-/

namespace EdnLint

open Grammar Reader

namespace CheckedReader

section

variable {text s t : Text} {p : Position} {c : CodePoint} {bound n : Nat} {α β : Type}
  {result : Except ReadFailure Node} {x : CheckedReader α} {post : α → Text → Text → Prop}
  {post' : β → Text → Text → Prop}

/-! ## Forms -/

/-- A form can be called for in front of `t`. -/
def BeginsForm (t : Text) : Prop := ∃ c ∈ t.head?, c.beginsForm = true

/-- Calls for a form follow the other reader from the offset `origin` on, wherever a form
can begin. -/
def FormsFollow (text : Text) (form : CheckedReader (Option Node)) (origin : Nat) : Prop :=
  ∀ (result : Except ReadFailure Node) (p : Position) (t : Text) (st : Stack),
    origin ≤ p.offset → Leaves text p t → BeginsForm t → result = (between p st).read t →
      Follows result form p t (Placed result p st)

/-- What comes behind a form starts further on, with less of the text left. -/
theorem FormsFollow.follows_bind {form : CheckedReader (Option Node)} {origin : Nat} {st : Stack}
    {f : Option Node → CheckedReader β} (hform : FormsFollow text form origin)
    (hp : origin ≤ p.offset) (h : Leaves text p t) (hbegins : BeginsForm t)
    (hresult : result = (between p st).read t)
    (hf : ∀ found s u, origin ≤ (p.after s).offset → Leaves text (p.after s) u →
      u.length < t.length → Placed result p st found s u →
      Follows result (f found) (p.after s) u fun b v w => post' b (s ++ v) w) :
    Follows result (form >>= f) p t post' := by
  refine (hform result p t st hp h hbegins hresult).bind ?_
  rintro found s u rfl hfound
  have hlt : u.length < (s ++ u).length := by
    have htaken := List.length_pos_iff.mpr hfound.taken
    rw [List.length_append]
    omega
  exact hf found s u (Nat.le_trans hp (by simp)) h.after hlt hfound

/-- The frame that is filled by forms up to the end of the text or to a closing
delimiter. -/
def Awaits (frames : List Frame) : Option (CodePoint × Position) → Prop
  | none => frames = []
  | some (closer, start) =>
      ∃ shape forms outer, frames = .collection shape closer start forms :: outer

theorem Awaits.deliver {st : Stack} {closing : Option (CodePoint × Position)}
    (h : Awaits st.frames closing) (n : Node) : Awaits (st.deliver n).frames closing := by
  obtain ⟨frames, document⟩ := st
  cases closing with
  | none =>
      obtain rfl : frames = [] := h
      rfl
  | some closing =>
      obtain ⟨shape, forms, outer, rfl⟩ := h
      exact ⟨shape, n :: forms, outer, rfl⟩

theorem Awaits.deliverAll {st : Stack} {closing : Option (CodePoint × Position)}
    (h : Awaits st.frames closing) (found : Option Node) :
    Awaits (st.deliverAll found.toList).frames closing := by
  cases found with
  | none => exact h
  | some n => exact h.deliver n

theorem Awaits.read_nil {st : Stack} {closer : CodePoint} {start : Position}
    (h : Awaits st.frames (some (closer, start))) :
    (between p st).read [] = Reader.failAt (.unclosed closer) start := by
  obtain ⟨frames, document⟩ := st
  obtain ⟨shape, forms, outer, rfl⟩ := h
  rfl

theorem Awaits.read_other {st : Stack} {closing : Option (CodePoint × Position)}
    (h : Awaits st.frames closing) (hcloser : c.isCloser = true)
    (hc : closing.map Prod.fst ≠ some c) :
    (between p st).read (c :: t) = Reader.failAt (.unmatched c) p := by
  obtain ⟨frames, document⟩ := st
  rw [between_read_cons, begin_closer hcloser]
  cases closing with
  | none =>
      obtain rfl : frames = [] := h
      rfl
  | some closing =>
      obtain ⟨shape, forms, outer, rfl⟩ := h
      have hc : c ≠ closing.1 := fun hc' => hc (by rw [hc']; rfl)
      simp only [Stack.close, hc, if_false]
      rfl

/-- The frame of what began at `start` and needs one more form as its part. -/
def Requires (frames : List Frame) (part : Part) (start : Position) : Prop :=
  ∃ shape later forms outer, frames = .pending shape part later start forms :: outer

theorem Requires.read_nil {st : Stack} {part : Part} {start : Position}
    (h : Requires st.frames part start) :
    (between p st).read [] = Reader.failAt (.endWithin part) start := by
  obtain ⟨frames, document⟩ := st
  obtain ⟨shape, later, forms, outer, rfl⟩ := h
  rfl

theorem Requires.read_closer {st : Stack} {part : Part} {start : Position}
    (h : Requires st.frames part start) (hcloser : c.isCloser = true) :
    (between p st).read (c :: t) = Reader.failAt (.unexpected c part) p := by
  obtain ⟨frames, document⟩ := st
  obtain ⟨shape, later, forms, outer, rfl⟩ := h
  rw [between_read_cons, begin_closer hcloser]
  rfl

/-- Whatever follows the blanks and is no closing delimiter begins a form. -/
theorem beginsForm_of_not_isCloser (hhead : c.isBlank = false ∧ c ≠ ';')
    (hcloser : ¬ c.isCloser = true) : BeginsForm (c :: t) :=
  ⟨c, rfl, by simp [CodePoint.beginsForm, hhead.1, hhead.2, hcloser]⟩

theorem brackets_of_opening? {shape : Shape} {closer : CodePoint}
    (h : opening? c = some (shape, closer)) : Brackets [c] shape closer := by
  unfold opening? at h
  split at h
  · cases h
    subst c
    exact .list
  split at h
  · cases h
    subst c
    exact .vector
  split at h
  · cases h
    subst c
    exact .map
  · cases h

/-- What begins a form, but neither a collection nor a string, is part of a token. -/
theorem isTerminator_eq_false (hc : c.beginsForm = true) (hopening : opening? c = none)
    (hquote : c ≠ '"') : c.isTerminator = false := by
  have hbrackets : c ≠ '(' ∧ c ≠ '[' ∧ c ≠ '{' := by
    refine ⟨?_, ?_, ?_⟩ <;> rintro rfl <;> cases hopening
  obtain ⟨hlist, hvector, hmap⟩ := hbrackets
  simp only [CodePoint.beginsForm, Bool.not_eq_true', Bool.or_eq_false_iff,
    decide_eq_false_iff_not] at hc
  obtain ⟨⟨hblank, hcomment⟩, hcloser⟩ := hc
  simp [CodePoint.isTerminator, hblank, hcomment, hcloser, hlist, hvector, hmap, hquote]

section

variable {form : CheckedReader (Option Node)} {st : Stack} {origin : Nat}
variable (hbound : text.length < bound)

include hbound

theorem Follows.skipBlank {f : Unit → CheckedReader β} (h : Leaves text p t)
    (hresult : result = (between p st).read t)
    (hf : ∀ s u, t = s ++ u → Leaves text (p.after s) u →
      result = (between (p.after s) st).read u →
      (∀ c ∈ u.head?, c.isBlank = false ∧ c ≠ ';') →
      Follows result (f ()) (p.after s) u fun b v w => post' b (s ++ v) w) :
    Follows result (skipBlank text bound bound >>= f) p t post' := by
  obtain ⟨s, u, rfl, hrun, hread, hhead⟩ :=
    exists_run_skipBlank hbound h (h.length_lt hbound)
  exact Follows.step hrun (hf s u rfl h.after (hresult.trans (hread st)) hhead)

theorem follows_forms (hform : FormsFollow text form origin)
    {closing : Option (CodePoint × Position)} (hst : Awaits st.frames closing)
    (hp : origin ≤ p.offset) (h : Leaves text p t) (hn : t.length < n)
    (hresult : result = (between p st).read t) :
    Follows result (forms text bound form closing n) p t fun ns s u =>
      u.head? = closing.map Prod.fst ∧
        result = (between (p.after s) (st.deliverAll ns)).read u := by
  -- the rounds that are left exceed what is left of the text, as every round takes some of it
  induction n generalizing p t st with
  | zero => cases hn
  | succ n ih =>
      refine Follows.skipBlank hbound h hresult ?_
      rintro s u rfl h hresult hhead
      refine Follows.peek h 0 ?_
      cases u with
      | nil =>
          cases closing with
          | none => exact Follows.pure ⟨rfl, by rw [List.append_nil]; exact hresult⟩
          | some closing => exact Follows.failAt (hresult.trans hst.read_nil)
      | cons c u =>
          simp only [List.getElem?_cons_zero]
          by_cases hcloser : c.isCloser = true
          · rw [if_pos hcloser]
            by_cases hc : closing.map Prod.fst = some c
            · rw [if_pos hc]
              exact Follows.pure ⟨hc.symm, by rw [List.append_nil]; exact hresult⟩
            · rw [if_neg hc]
              exact Follows.get (Follows.failAt (hresult.trans (hst.read_other hcloser hc)))
          · rw [if_neg hcloser]
            have hbegins := beginsForm_of_not_isCloser (t := u) (hhead c rfl) hcloser
            refine hform.follows_bind (Nat.le_trans hp (by simp)) h hbegins hresult ?_
            intro found v w hlater h hlt hfound
            have hw : w.length < n := by
              rw [List.length_append] at hn
              omega
            refine (ih (hst.deliverAll found) hlater h hw hfound.comes).bind ?_
            intro ns v' w' _ hns
            refine Follows.pure ⟨hns.1, ?_⟩
            rw [hns.2, Stack.deliverAll_append]
            simp only [List.append_nil, Position.after_append]

theorem follows_required (hform : FormsFollow text form origin) {part : Part} {start : Position}
    (hst : Requires st.frames part start) (hp : origin ≤ p.offset) (h : Leaves text p t)
    (hn : t.length < n) (hresult : result = (between p st).read t) :
    Follows result (required text bound form part start n) p t fun node =>
      Placed result p st (some node) := by
  induction n generalizing p t with
  | zero => cases hn
  | succ n ih =>
      refine Follows.skipBlank hbound h hresult ?_
      rintro s u rfl h hresult hhead
      refine Follows.peek h 0 ?_
      cases u with
      | nil => exact Follows.failAt (hresult.trans hst.read_nil)
      | cons c u =>
          simp only [List.getElem?_cons_zero]
          by_cases hcloser : c.isCloser = true
          · rw [if_pos hcloser]
            exact Follows.get (Follows.failAt (hresult.trans (hst.read_closer hcloser)))
          · rw [if_neg hcloser]
            have hbegins := beginsForm_of_not_isCloser (t := u) (hhead c rfl) hcloser
            refine hform.follows_bind (Nat.le_trans hp (by simp)) h hbegins hresult ?_
            intro found v w hlater h hlt hfound
            cases found with
            | some node =>
                refine Follows.pure ?_
                rw [List.append_nil]
                exact hfound.prepend
            | none =>
                have hw : w.length < n := by
                  rw [List.length_append] at hn
                  omega
                -- a discarded form has left the stack as it was
                refine (ih hlater h hw hfound.comes).imp ?_
                intro node v' w' hnode
                exact hnode.prepend.prepend

theorem follows_collection {opening : Text} {shape : Shape} {closer : CodePoint}
    (hb : Brackets opening shape closer) (hform : FormsFollow text form (p.offset + 1))
    (h : Leaves text p (opening ++ t)) (hresult : result = (between p st).read (opening ++ t)) :
    Follows result (collection text bound form shape opening.length closer) p (opening ++ t)
      fun n => Placed result p st (some n) := by
  have hp : p.offset + 1 ≤ (p.after opening).offset := by
    rw [Position.after_offset]
    cases hb <;> simp
  have hlength := h.after.length_lt hbound
  rw [read_opening hb] at hresult
  refine Follows.get (Follows.step (run_skip h) ?_)
  have hst : Awaits (st.push (.collection shape closer p [])).frames (some (closer, p)) :=
    ⟨shape, [], st.frames, rfl⟩
  refine (follows_forms hbound hform hst hp h.after hlength hresult).bind ?_
  rintro ns s u rfl ⟨hhead, hns⟩
  obtain ⟨u, rfl⟩ : ∃ v, u = closer :: v := List.head?_eq_some_iff.mp hhead
  rw [Stack.push, Stack.deliverAll_collection, read_closer hb, List.append_nil,
    List.reverse_reverse] at hns
  refine Follows.take h.after.after ?_
  have hend : (((p.after opening).after s).next closer) = p.after (opening ++ s ++ [closer]) := by
    simp [Position.after_append]
  rw [hend] at hns ⊢
  have hnode := follows_node (s := opening ++ s ++ [closer]) (by simp) hns
  refine hnode.imp fun n v w hn => ?_
  simpa using hn

/-- The last part of a wrapper completes it. -/
theorem follows_wrapper {shape : Shape} {part : Part} {forms : List Node}
    (hform : FormsFollow text form origin) (hs : s ≠ []) (hp : origin ≤ (p.after s).offset)
    (h : Leaves text (p.after s) t)
    (hresult : result = (between (p.after s)
      (st.push (.pending (some shape) part [] p forms.reverse))).read t) :
    Follows result (wrapper text bound form shape part p forms) (p.after s) t fun n u v =>
      Placed result p st (some n) (s ++ u) v := by
  have hst : Requires (st.push (.pending (some shape) part [] p forms.reverse)).frames part p :=
    ⟨some shape, [], forms.reverse, st.frames, rfl⟩
  have hlength := h.length_lt hbound
  refine (follows_required hbound hform hst hp h hlength hresult).bind ?_
  intro target u v _ htarget
  have hcomes := htarget.comes
  rw [Option.toList_some, Stack.deliverAll_singleton, Stack.deliver_wrapper,
    htarget.stop_eq target rfl, ← Position.after_append, List.reverse_cons,
    List.reverse_reverse] at hcomes
  rw [← Position.after_append]
  simp only [← List.append_assoc]
  exact follows_node (by simp [hs]) hcomes

theorem follows_quote (hform : FormsFollow text form (p.offset + 1))
    (h : Leaves text p ('\'' :: t)) (hresult : result = (between p st).read ('\'' :: t)) :
    Follows result (quote text bound form) p ('\'' :: t) fun n => Placed result p st (some n) :=
  Follows.get (Follows.take h
    (follows_wrapper (s := ['\'']) hbound hform (by simp) (by simp) h.next hresult))

theorem follows_metadata (hform : FormsFollow text form (p.offset + 1))
    (h : Leaves text p ('^' :: t)) (hresult : result = (between p st).read ('^' :: t)) :
    Follows result (metadata text bound form) p ('^' :: t) fun n =>
      Placed result p st (some n) := by
  have hlength := h.next.length_lt hbound
  have hst : Requires (st.push
      (.pending (some .metadata) .metadata [.metadataTarget] p [])).frames .metadata p :=
    ⟨_, _, _, _, rfl⟩
  refine Follows.get (Follows.take h ?_)
  refine (follows_required hbound hform hst (by simp) h.next hlength hresult).bind ?_
  rintro data s u rfl hdata
  have hcomes : result = (between (p.after ('^' :: s)) (st.push
    (.pending (some .metadata) .metadataTarget [] p [data]))).read u := hdata.comes
  exact follows_wrapper (s := '^' :: s) hbound hform (by simp) (by simp) h.next.after hcomes

/-- A tag is not empty: it holds at least the code point that was seen behind the `#`. -/
theorem follows_tagged (hform : FormsFollow text form (p.offset + 1)) (htag : IsTag [c])
    (h : Leaves text p ('#' :: c :: t)) (hresult : result = (between p st).read ('#' :: c :: t)) :
    Follows result (tagged text bound form) p ('#' :: c :: t) fun n =>
      Placed result p st (some n) := by
  obtain ⟨token, rest, rfl, htoken, hrest⟩ := exists_token t
  obtain ⟨hc, hfirst⟩ := htag
  have htag : IsTag (c :: token) :=
    ⟨isToken_cons.mpr ⟨(isToken_cons.mp hc).1, htoken⟩, hfirst⟩
  have hleaves : Leaves text (p.next '#') ((c :: token) ++ rest) := h.next
  rw [← List.cons_append, read_tag htag hrest] at hresult
  refine Follows.get (Follows.take h ?_)
  refine Follows.step (run_token hleaves htag.1 hrest hbound) ?_
  rw [List.isEmpty_cons, if_neg Bool.false_ne_true]
  exact follows_wrapper (s := '#' :: c :: token) hbound hform (by simp) (by simp; omega)
    hleaves.after hresult

theorem follows_discard (hform : FormsFollow text form (p.offset + 1))
    (h : Leaves text p ('#' :: '_' :: t))
    (hresult : result = (between p st).read ('#' :: '_' :: t)) :
    Follows result (discard text bound form) p ('#' :: '_' :: t) fun _ =>
      Placed result p st none := by
  have hlength := h.next.next.length_lt hbound
  have hst : Requires (st.push (.pending none .discardedForm [] p [])).frames .discardedForm p :=
    ⟨_, _, _, _, rfl⟩
  refine Follows.get (Follows.step (run_skip (s := ['#', '_']) h) ?_)
  refine (follows_required hbound hform hst (by simp) h.next.next hlength hresult).bind ?_
  intro n s u _ hn
  refine Follows.pure ⟨by simp, by simp, ?_⟩
  rw [List.append_nil]
  exact hn.comes

theorem follows_dispatch (hform : FormsFollow text form (p.offset + 1))
    (h : Leaves text p ('#' :: t)) (hresult : result = (between p st).read ('#' :: t)) :
    Follows result (dispatch text bound form) p ('#' :: t) (Placed result p st) := by
  refine Follows.peek h 1 ?_
  cases t with
  | nil => exact Follows.get (Follows.failAt hresult)
  | cons c t =>
      simp only [List.getElem?_cons_succ, List.getElem?_cons_zero]
      by_cases hbrace : c = '{'
      · subst hbrace
        rw [if_pos rfl]
        exact follows_some (follows_collection hbound .set hform h hresult)
      rw [if_neg hbrace]
      by_cases hquote : c = '"'
      · subst hquote
        rw [if_pos rfl]
        exact follows_some (follows_string hbound true h hresult)
      rw [if_neg hquote]
      by_cases hunderscore : c = '_'
      · subst hunderscore
        rw [if_pos rfl]
        refine (follows_discard hbound hform h hresult).bind fun _ s u _ hnone => Follows.pure ?_
        rw [List.append_nil]
        exact hnone
      rw [if_neg hunderscore]
      by_cases hhash : c = '#'
      · subst hhash
        rw [if_pos rfl]
        exact follows_some (follows_symbolic hbound h hresult)
      rw [if_neg hhash]
      by_cases hterminator : c.isTerminator = true
      · rw [if_pos hterminator]
        refine Follows.get (Follows.failAt (hresult.trans ?_))
        change (⟨p.next '#', .dispatch p, st⟩ : Reader).read (c :: t) = _
        simp only [read_cons, advance, Reader.dispatch, hbrace, hquote, hunderscore, hhash,
          hterminator, if_false, if_true]
        rfl
      · rw [if_neg hterminator]
        refine follows_some (follows_tagged hbound hform ⟨?_, c, rfl, hunderscore, hhash⟩ h hresult)
        simpa [IsToken] using hterminator

theorem follows_formWith (hform : FormsFollow text form (p.offset + 1)) (h : Leaves text p t)
    (hbegins : BeginsForm t) (hresult : result = (between p st).read t) :
    Follows result (formWith text bound form) p t (Placed result p st) := by
  obtain ⟨c, hhead, hc⟩ := hbegins
  obtain ⟨t, rfl⟩ := List.head?_eq_some_iff.mp hhead
  refine Follows.peek h 0 ?_
  simp only [List.getElem?_cons_zero, hc, Bool.not_true, Bool.false_eq_true, if_false]
  cases hopening : opening? c with
  | some brackets =>
      have hb := brackets_of_opening? hopening
      exact follows_some (follows_collection hbound hb hform h hresult)
  | none =>
      by_cases hquote : c = '"'
      · subst hquote
        exact follows_some (follows_string hbound false h hresult)
      by_cases hbackslash : c = '\\'
      · subst hbackslash
        exact follows_some (follows_character hbound h hresult)
      by_cases hhash : c = '#'
      · subst hhash
        exact follows_dispatch hbound hform h hresult
      by_cases hcaret : c = '^'
      · subst hcaret
        exact follows_some (follows_metadata hbound hform h hresult)
      by_cases hapostrophe : c = '\''
      · subst hapostrophe
        exact follows_some (follows_quote hbound hform h hresult)
      simp only [hquote, hbackslash, hhash, hcaret, hapostrophe, if_false]
      have htoken : IsToken [c] := by
        simpa [IsToken] using isTerminator_eq_false hc hopening hquote
      have hbare : IsBare [c] := ⟨htoken, c, rfl, hbackslash, hhash, hcaret, hapostrophe⟩
      exact follows_some (follows_atom hbound hbare h hresult)

end

/-- A form that is called for where one can begin makes progress, if the depth suffices for
what is left of the text. -/
theorem follows_form (hbound : text.length < bound) {origin depth : Nat}
    (hdepth : text.length ≤ origin + depth) :
    FormsFollow text (form text bound depth) origin := by
  induction depth generalizing origin with
  | zero =>
      intro result p t st hp h hbegins _
      obtain ⟨c, hhead, _⟩ := hbegins
      obtain ⟨t, rfl⟩ := List.head?_eq_some_iff.mp hhead
      have hlength := h.length_eq
      rw [List.length_cons] at hlength
      omega
  | succ depth ih =>
      intro result p t st hp h hbegins hresult
      -- nested forms begin behind the first code point, so one less of depth suffices for them
      have hform : FormsFollow text (form text bound depth) (p.offset + 1) := ih (by omega)
      refine Follows.get ((follows_formWith hbound hform h hbegins hresult).bind ?_)
      rintro found s u rfl hfound
      have hprogress : p.offset < (p.after s).offset ∧ (p.after s).offset ≤ text.length :=
        ⟨hfound.offset_lt, h.after.le_length⟩
      refine Follows.get ?_
      rw [if_pos hprogress]
      refine Follows.pure ?_
      rw [List.append_nil]
      exact hfound

theorem follows_document (hbound : text.length < bound) :
    Follows (parse text) (document text bound) .first text fun n _ _ => parse text = .ok n := by
  have hform : FormsFollow text (form text bound bound) 0 := follows_form hbound (by omega)
  have hst : Awaits Stack.empty.frames none := rfl
  refine (follows_forms hbound hform hst (Nat.zero_le _) (Leaves.first text) hbound
    (parse_eq_read text)).bind ?_
  rintro ns s u _ ⟨hhead, hns⟩
  obtain rfl : u = [] := List.head?_eq_none_iff.mp hhead
  refine Follows.get (Follows.pure ?_)
  rw [hns, Stack.empty, Stack.deliverAll_document, read_nil]
  simp [finish, between, complete, Stack.document]

/-! ## Reading keeps the assumptions -/

/-- The call at `p` breaks no assumption. -/
def Unbroken (x : CheckedReader α) (p : Position) : Prop := ∀ b, x.run p ≠ .error (.breach b)

theorem Follows.unbroken (h : Follows result x p t post) : Unbroken x p := by
  intro b hb
  unfold Follows at h
  rw [hb] at h
  exact h

theorem read_eq_parse (hbound : text.length < bound) :
    read text bound = (parse text).mapError .failure := by
  have h := follows_document hbound
  unfold Follows at h
  unfold read
  split at h
  case h_1 n q hrun =>
      obtain ⟨s, u, _, _, hparse⟩ := h
      rw [hrun, hparse]
      rfl
  case h_2 e hrun =>
      rw [hrun, h]
      rfl
  case h_3 => exact h.elim

theorem form_progress (hbound : text.length < bound) (h : text[p.offset]? = some c)
    (hc : c.beginsForm = true) :
    (∃ e, (form text bound bound).run p = .error (.failure e)) ∨
      ∃ found q, (form text bound bound).run p = .ok (found, q) ∧
        p.offset < q.offset ∧ q.offset ≤ text.length := by
  obtain ⟨t, ht⟩ := Leaves.of_getElem? h
  have hform : FormsFollow text (form text bound bound) 0 := follows_form hbound (by omega)
  have hfollows := hform _ p _ .empty (Nat.zero_le _) ht ⟨c, rfl, hc⟩ rfl
  unfold Follows at hfollows
  split at hfollows
  case h_1 found q hrun =>
      obtain ⟨s, u, htext, rfl, hfound⟩ := hfollows
      rw [htext] at ht
      exact .inr ⟨found, _, hrun, hfound.offset_lt, ht.after.le_length⟩
  case h_2 e hrun => exact .inl ⟨e, hrun⟩
  case h_3 => exact hfollows.elim

theorem run_form_error {depth : Nat} {e : Ending}
    (h : (formWith text bound (form text bound depth)).run p = .error e) :
    (form text bound (depth + 1)).run p = .error e := by
  have hget : (get : CheckedReader Position).run p = .ok (p, p) := rfl
  rw [form, run_bind hget, StateT.run_bind, h]
  rfl

/-- A form that is called for where none can begin breaks an assumption. -/
theorem exists_beginsForm_of_unbroken {depth : Nat}
    (h : Unbroken (form text bound (depth + 1)) p) :
    ∃ c ∈ text[p.offset]?, c.beginsForm = true := by
  have hpeek : (peek text 0).run p = .ok (text[p.offset]?, p) := rfl
  cases hc : text[p.offset]? with
  | none =>
      refine absurd (run_form_error ?_) (h .pastEnd)
      rw [formWith, run_bind hpeek, hc]
      rfl
  | some c =>
      by_cases hbegins : c.beginsForm = true
      · exact ⟨c, rfl, hbegins⟩
      · refine absurd (run_form_error ?_) (h .noForm)
        rw [formWith, run_bind hpeek, hc]
        simp only [hbegins, Bool.not_false, if_true]
        rfl

theorem form_progress_iff (hbound : text.length < bound) :
    (∃ c ∈ text[p.offset]?, c.beginsForm = true) ↔
      (∃ e, (form text bound bound).run p = .error (.failure e)) ∨
        ∃ found q, (form text bound bound).run p = .ok (found, q) ∧
          p.offset < q.offset ∧ q.offset ≤ text.length := by
  constructor
  · rintro ⟨c, h, hc⟩
    exact form_progress hbound h hc
  · intro h
    obtain ⟨depth, rfl⟩ : ∃ depth, bound = depth + 1 := ⟨bound - 1, by omega⟩
    have hunbroken : Unbroken (form text (depth + 1) (depth + 1)) p := by
      intro b hb
      rcases h with ⟨e, he⟩ | ⟨found, q, hok, -⟩
      · rw [hb] at he
        cases he
      · rw [hb] at hok
        cases hok
    exact exists_beginsForm_of_unbroken hunbroken

theorem forms_unbroken (hbound : text.length < bound) (hp : p.offset ≤ text.length)
    (closing : Option (CodePoint × Position)) :
    Unbroken (forms text bound (form text bound bound) closing bound) p := by
  have h : Leaves text p (text.drop p.offset) := ⟨rfl, hp⟩
  have hlength := h.length_lt hbound
  obtain ⟨st, hst⟩ : ∃ st : Stack, Awaits st.frames closing :=
    match closing with
    | none => ⟨.empty, rfl⟩
    | some (closer, start) => ⟨⟨[.collection .list closer start []], []⟩, .list, [], [], rfl⟩
  have hform : FormsFollow text (form text bound bound) 0 := follows_form hbound (by omega)
  exact (follows_forms hbound hform hst (Nat.zero_le _) h hlength rfl).unbroken

theorem required_unbroken (hbound : text.length < bound) (hp : p.offset ≤ text.length)
    (part : Part) (start : Position) :
    Unbroken (required text bound (form text bound bound) part start bound) p := by
  have h : Leaves text p (text.drop p.offset) := ⟨rfl, hp⟩
  have hlength := h.length_lt hbound
  have hst : Requires (Stack.empty.push (.pending none part [] start [])).frames part start :=
    ⟨_, _, _, _, rfl⟩
  have hform : FormsFollow text (form text bound bound) 0 := follows_form hbound (by omega)
  exact (follows_required hbound hform hst (Nat.zero_le _) h hlength rfl).unbroken

theorem quoted_unbroken (hbound : text.length < bound) (hp : p.offset ≤ text.length)
    (pattern : Bool) (start : Position) : Unbroken (quoted text pattern start bound) p := by
  have h : Leaves text p (text.drop p.offset) := ⟨rfl, hp⟩
  have hlength := h.length_lt hbound
  obtain ⟨result, hresult⟩ : ∃ result, result =
      (⟨p, .string pattern start [], .empty⟩ : Reader).read (text.drop p.offset) := ⟨_, rfl⟩
  exact (follows_quoted h hlength hresult).unbroken

end

end CheckedReader

namespace Reader

/-- A token, a tag or the name of a character holds a code point from its beginning on. -/
def Begun : Mode → Prop
  | .token _ read | .tag _ read | .character _ read => read ≠ []
  | _ => True

section

variable {s s' : Stack} {p : Position} {c : CodePoint} {m m' : Mode}

theorem begun_of_begin (h : begin s p c = .ok (m', s')) : Begun m' := by
  grind [begin, Begun]

theorem begun_of_extend {longer : Mode} (h : extend m longer s p c = .ok (m', s'))
    (hlonger : Begun longer) : Begun m' := by
  unfold extend at h
  split at h
  · split at h
    · exact begun_of_begin h
    · cases h
  · cases h
    exact hlonger

theorem begun_of_unescape {pattern : Bool} {start place : Position} {read : Text}
    (h : unescape pattern start read place c = .ok m') : Begun m' := by
  grind [unescape, Begun, failAt]

theorem begun_of_addDigit {start place : Position} {read digits : Text}
    (h : addDigit start read place digits c = .ok m') : Begun m' := by
  grind [addDigit, Begun, failAt]

theorem begun_of_advance (h : advance s p c m = .ok (m', s')) : Begun m' := by
  cases m with
  | blank => exact begun_of_begin h
  | token start read =>
      rw [(Gathers.token start).advance] at h
      exact begun_of_extend h (List.cons_ne_nil c read)
  | tag start read =>
      rw [(Gathers.tag start).advance] at h
      exact begun_of_extend h (List.cons_ne_nil c read)
  | character start read =>
      rw [(Gathers.character start).advance] at h
      exact begun_of_extend h (List.cons_ne_nil c read)
  | symbolic start read =>
      rw [(Gathers.symbolic start).advance] at h
      exact begun_of_extend h trivial
  | comment => grind [advance, Begun]
  | dispatch start => grind [advance, dispatch, Begun, failAt]
  | backslash start => grind [advance, Begun]
  | string pattern start read => grind [advance, Begun]
  | escape pattern start read place =>
      cases hmode : unescape pattern start read place c with
      | error e => simp [advance, hmode, Except.map] at h
      | ok mode =>
          obtain ⟨rfl, rfl⟩ : mode = m' ∧ s = s' := by simpa [advance, hmode, Except.map] using h
          exact begun_of_unescape hmode
  | digits start read place digits =>
      cases hmode : addDigit start read place digits c with
      | error e => simp [advance, hmode, Except.map] at h
      | ok mode =>
          obtain ⟨rfl, rfl⟩ : mode = m' ∧ s = s' := by simpa [advance, hmode, Except.map] using h
          exact begun_of_addDigit hmode

end

/-- Whatever has been read, no lexeme that has begun is empty. -/
theorem begun_of_feed {r r' : Reader} {t : Text} (hr : Begun r.mode) (h : r.feed t = .ok r') :
    Begun r'.mode := by
  induction t generalizing r with
  | nil =>
      cases h
      exact hr
  | cons c t ih =>
      simp only [feed, step] at h
      cases hadvance : advance r.stack r.position c r.mode with
      | error e => simp [hadvance] at h
      | ok next =>
          rw [hadvance] at h
          exact ih (begun_of_advance hadvance) h

end Reader

namespace CheckedReader

/-- Reading by descent keeps every assumption, and it reads what the reader reads that
takes one code point at a time. A form may be called for at exactly the places where one
can begin: there the call fails or ends further on in the text, and elsewhere it breaks an
assumption. So the loops come to an end from every place of the text. No token of the other
reader is ever empty either. -/
theorem read_keeps_assumptions (text : Text) (bound : Nat) (hbound : text.length < bound) :
    (read text bound = (parse text).mapError .failure ∧
      ∀ b, read text bound ≠ .error (.breach b)) ∧
    (∀ p, (∃ c ∈ text[p.offset]?, c.beginsForm = true) ↔
      (∃ e, (form text bound bound).run p = .error (.failure e)) ∨
        ∃ found q, (form text bound bound).run p = .ok (found, q) ∧
          p.offset < q.offset ∧ q.offset ≤ text.length) ∧
    (∀ p, p.offset ≤ text.length →
      (∀ closing, Unbroken (forms text bound (form text bound bound) closing bound) p) ∧
      (∀ part start, Unbroken (required text bound (form text bound bound) part start bound) p) ∧
      ∀ pattern start, Unbroken (quoted text pattern start bound) p) ∧
    ∀ s r, Reader.initial.feed s = .ok r → Begun r.mode := by
  refine ⟨⟨read_eq_parse hbound, ?_⟩, ?_, ?_, ?_⟩
  · intro b hb
    rw [read_eq_parse hbound] at hb
    cases hparse : parse text with
    | error e =>
        rw [hparse] at hb
        cases hb
    | ok n =>
        rw [hparse] at hb
        cases hb
  · intro p
    exact form_progress_iff hbound
  · intro p hp
    exact ⟨forms_unbroken hbound hp, required_unbroken hbound hp, quoted_unbroken hbound hp⟩
  · intro s r h
    exact begun_of_feed (r := .initial) trivial h

/-- The string at the end of `#{a #_b #t "x` is not closed, which is a failure and no breach.
The discard, which leaves no node, still takes some of the text, and no form is called for
at the blank in front of it. -/
theorem read_keeps_assumptions_unclosed :
    let text : Text := "#\x7ba #_b #t \"x"
    text.length < 14 ∧
      read text 14 = .error (.failure (.error ⟨.endWithinString, ⟨1, 12, 11⟩⟩)) ∧
      ((∃ e, (form text 14 14).run ⟨1, 5, 4⟩ = .error (.failure e)) ∨
        ∃ found q, (form text 14 14).run ⟨1, 5, 4⟩ = .ok (found, q) ∧
          4 < q.offset ∧ q.offset ≤ 13) ∧
      ∀ e, (form text 14 14).run ⟨1, 4, 3⟩ ≠ .error (.failure e) := by
  intro text
  obtain ⟨⟨hread, -⟩, hforms, -⟩ := read_keeps_assumptions text 14 (by decide)
  have hdiscard := (hforms ⟨1, 5, 4⟩).mp ⟨CodePoint.ofChar '#', rfl, by decide⟩
  refine ⟨by decide, hread.trans rfl, hdiscard, fun e he => ?_⟩
  obtain ⟨c, hc, hbegins⟩ := (hforms ⟨1, 4, 3⟩).mpr (.inl ⟨e, he⟩)
  obtain rfl : CodePoint.ofChar ' ' = c := Option.some.inj hc
  exact absurd hbegins (by decide)

end CheckedReader

end EdnLint
