import EdnLint.Proofs.Document.CheckedReader
import EdnLint.Proofs.Document.Recognition

/-!
# The calls of a checked reader

A checked reader and the reader that takes one code point at a time are run over the
same text. `Follows result x p t post` says that the call `x` of the checked reader at
`p`, where `t` is what is left of the text, breaks no assumption. It fails only with the
failure that the other reader comes to, and if it returns, it has taken a part of `t`
that `post` holds of. Each call has a lemma that says where the other reader stands
behind it, so the two never come apart.

Here are the calls that call for no form. Some of them end at a place that is known
beforehand and are evaluated (`run_skip`, `run_span`, `exists_run_skipBlank`); a string
has a lemma about every round of its loop.
-/

namespace EdnLint

open Grammar Reader

namespace CheckedReader

/-- What is left of the text at `p` is `t`. -/
structure Leaves (text : Text) (p : Position) (t : Text) : Prop where
  drop_eq : text.drop p.offset = t
  le_length : p.offset ≤ text.length

section

variable {text s t : Text} {p : Position} {c : CodePoint} {bound n : Nat}

theorem Leaves.first (text : Text) : Leaves text .first text := ⟨rfl, Nat.zero_le _⟩

theorem Leaves.length_eq (h : Leaves text p t) : text.length = p.offset + t.length := by
  obtain ⟨rfl, hle⟩ := h
  rw [List.length_drop]
  omega

theorem Leaves.length_lt (h : Leaves text p t) (hbound : text.length < bound) :
    t.length < bound := by
  have hlength := h.length_eq
  omega

theorem Leaves.getElem? (h : Leaves text p t) (k : Nat) : text[p.offset + k]? = t[k]? := by
  rw [← h.drop_eq, List.getElem?_drop]

theorem Leaves.after (h : Leaves text p (s ++ t)) : Leaves text (p.after s) t := by
  have hlength := h.length_eq
  rw [List.length_append] at hlength
  refine ⟨?_, ?_⟩
  · rw [Position.after_offset, ← List.drop_drop, h.drop_eq, List.drop_left]
  · rw [Position.after_offset]
    omega

theorem Leaves.next (h : Leaves text p (c :: t)) : Leaves text (p.next c) t :=
  Leaves.after (s := [c]) h

theorem Leaves.of_getElem? (h : text[p.offset]? = some c) : ∃ t, Leaves text p (c :: t) := by
  obtain ⟨hlt, hc⟩ := List.getElem?_eq_some_iff.mp h
  refine ⟨text.drop (p.offset + 1), ?_, Nat.le_of_lt hlt⟩
  rw [List.drop_eq_getElem_cons hlt, hc]

/-! ## The calls whose end is known beforehand -/

theorem run_bind {α β : Type} {x : CheckedReader α} {f : α → CheckedReader β} {a : α}
    {q : Position} (hx : x.run p = .ok (a, q)) : (x >>= f).run p = (f a).run q := by
  rw [StateT.run_bind, hx]
  rfl

theorem run_peek (h : Leaves text p t) (k : Nat) : (peek text k).run p = .ok (t[k]?, p) := by
  rw [← h.getElem? k]
  rfl

theorem run_take (h : Leaves text p (c :: t)) : (take text).run p = .ok (c, p.next c) := by
  rw [take, run_bind (run_peek h 0)]
  rfl

theorem run_skip (h : Leaves text p (s ++ t)) :
    (skip text s.length).run p = .ok ((), p.after s) := by
  induction s generalizing p with
  | nil => rfl
  | cons c s ih =>
      rw [List.length_cons, skip, run_bind (run_take h)]
      exact ih h.next

theorem run_span {stop : CodePoint → Bool} (h : Leaves text p (s ++ t))
    (hs : ∀ c ∈ s, stop c = false) (ht : ∀ c ∈ t.head?, stop c = true) (hn : s.length < n) :
    (span text stop n).run p = .ok (s, p.after s) := by
  induction s generalizing p n with
  | nil =>
      obtain ⟨n, rfl⟩ := Nat.exists_eq_add_of_lt hn
      rw [List.length_nil, Nat.zero_add, span, run_bind (run_peek h 0)]
      cases t with
      | nil => rfl
      | cons c t =>
          have hc : stop c = true := ht c rfl
          simp only [List.nil_append, List.getElem?_cons_zero, hc, if_true]
          rfl
  | cons c s ih =>
      cases n with
      | zero => cases hn
      | succ n =>
          have hc : stop c = false := hs c List.mem_cons_self
          have ih := ih h.next (fun d hd => hs d (List.mem_cons_of_mem c hd))
            (Nat.lt_of_succ_lt_succ hn)
          rw [span, run_bind (run_peek h 0)]
          simp only [List.cons_append, List.getElem?_cons_zero, hc, Bool.false_eq_true, if_false]
          rw [run_bind (run_take h), run_bind ih]
          rfl

theorem run_token (h : Leaves text p (s ++ t)) (hs : IsToken s) (ht : EndsToken t)
    (hbound : text.length < bound) : (token text bound).run p = .ok (s, p.after s) := by
  refine run_span h hs ht ?_
  have hlength := h.length_lt hbound
  rw [List.length_append] at hlength
  omega

/-- Behind blanks and comments there is neither a blank nor a comment, and the reader that
takes one code point at a time has come there with nothing to show for it. -/
theorem exists_run_skipBlank (hbound : text.length < bound) (h : Leaves text p t)
    (hn : t.length < n) :
    ∃ s u, t = s ++ u ∧ (skipBlank text bound n).run p = .ok ((), p.after s) ∧
      (∀ st, (between p st).read t = (between (p.after s) st).read u) ∧
      ∀ c ∈ u.head?, c.isBlank = false ∧ c ≠ ';' := by
  induction n generalizing p t with
  | zero => cases hn
  | succ n ih =>
      cases t with
      | nil =>
          refine ⟨[], [], rfl, ?_, fun st => rfl, by simp⟩
          rw [skipBlank, run_bind (run_peek h 0)]
          rfl
      | cons c t =>
          rw [skipBlank, run_bind (run_peek h 0)]
          simp only [List.getElem?_cons_zero]
          by_cases hblank : c.isBlank = true
          · obtain ⟨s, u, rfl, hrun, hread, hu⟩ :=
              ih h.next (Nat.lt_of_succ_lt_succ hn)
            refine ⟨c :: s, u, rfl, ?_, fun st => ?_, hu⟩
            · rw [if_pos hblank, run_bind (run_take h)]
              exact hrun
            · exact ((Derives.white hblank).read_append st).trans (hread st)
          by_cases hcomment : c = ';'
          · -- the semicolon ends no line, so the comment takes at least this code point
            subst hcomment
            obtain ⟨line, v, rfl, hline, hv⟩ :=
              exists_span (fun c => decide (c = CodePoint.ofChar '\n')) t
            have hcomment : Derives .blank p (CodePoint.ofChar ';' :: line) v [] :=
              .comment (fun c hc => by simpa using hline c hc) fun c hc => by simpa using hv c hc
            have hleaves : Leaves text p ((CodePoint.ofChar ';' :: line) ++ v) := h
            obtain ⟨s, u, rfl, hrun, hread, hu⟩ := ih hleaves.after (by
              simp only [List.length_cons, List.length_append] at hn
              omega)
            refine ⟨CodePoint.ofChar ';' :: (line ++ s), u, by simp, ?_, fun st => ?_, hu⟩
            · rw [if_neg hblank, if_pos rfl, run_bind (run_span hleaves ?_ hv ?_)]
              · rw [hrun, Position.after_cons, Position.after_cons, Position.after_append]
              · exact List.forall_mem_cons.mpr ⟨by decide, hline⟩
              · have hlength := hleaves.length_lt hbound
                rw [List.length_append] at hlength
                omega
            · exact (hcomment.read_append st).trans (by rw [Stack.deliverAll_nil, hread st,
                Position.after_cons, Position.after_cons, Position.after_append])
          · refine ⟨[], c :: t, rfl, ?_, fun st => rfl, ?_⟩
            · rw [if_neg hblank, if_neg hcomment]
              rfl
            · intro d hd
              obtain rfl : c = d := by simpa using hd
              exact ⟨by simpa using hblank, hcomment⟩

/-! ## Calls and the reader they follow -/

/-- The call `x` at `p`, where `t` is what is left of the text, breaks no assumption. It
fails as `result` does, and `post` holds of what it returns, of what it takes and of what
it leaves. -/
def Follows {α : Type} (result : Except ReadFailure Node) (x : CheckedReader α) (p : Position)
    (t : Text) (post : α → Text → Text → Prop) : Prop :=
  match x.run p with
  | .ok (a, q) => ∃ s u, t = s ++ u ∧ q = p.after s ∧ post a s u
  | .error (.failure e) => result = .error e
  | .error (.breach _) => False

variable {α β : Type} {result : Except ReadFailure Node} {x : CheckedReader α}
  {f : α → CheckedReader β} {post : α → Text → Text → Prop} {post' : β → Text → Text → Prop}

theorem Follows.pure {a : α} (h : post a [] t) : Follows result (pure a) p t post :=
  ⟨[], t, rfl, rfl, h⟩

theorem Follows.failAt {cause : ReadError.Cause} {q : Position}
    (h : result = Reader.failAt cause q) :
    Follows result (failAt cause q : CheckedReader α) p t post :=
  h

theorem Follows.bind (hx : Follows result x p t post)
    (hf : ∀ a s u, t = s ++ u → post a s u →
      Follows result (f a) (p.after s) u fun b v w => post' b (s ++ v) w) :
    Follows result (x >>= f) p t post' := by
  unfold Follows at hx
  split at hx
  case h_1 a q hrun =>
      obtain ⟨s, u, rfl, rfl, hpost⟩ := hx
      have hf := hf a s u rfl hpost
      unfold Follows at hf ⊢
      rw [run_bind hrun]
      split at hf
      case h_1 b q hrun' =>
          obtain ⟨v, w, rfl, rfl, hpost'⟩ := hf
          exact ⟨s ++ v, w, by simp, by rw [Position.after_append], hpost'⟩
      case h_2 => exact hf
      case h_3 => exact hf
  case h_2 e hrun =>
      unfold Follows
      rw [StateT.run_bind, hrun]
      exact hx
  case h_3 => exact hx.elim

/-- A call whose end is known is followed by what comes behind it. -/
theorem Follows.step {a : α} (hx : x.run p = .ok (a, p.after s))
    (hf : Follows result (f a) (p.after s) t fun b u v => post' b (s ++ u) v) :
    Follows result (x >>= f) p (s ++ t) post' := by
  have h : Follows result x p (s ++ t) fun b v w => b = a ∧ v = s ∧ w = t := by
    unfold Follows
    rw [hx]
    exact ⟨s, t, rfl, rfl, rfl, rfl, rfl⟩
  refine h.bind fun b v w _ hpost => ?_
  obtain ⟨rfl, rfl, rfl⟩ := hpost
  exact hf

theorem Follows.imp {post' : α → Text → Text → Prop} (h : Follows result x p t post)
    (himp : ∀ a s u, post a s u → post' a s u) : Follows result x p t post' := by
  unfold Follows at h ⊢
  split at h
  case h_1 a q hrun =>
      obtain ⟨s, u, ht, hq, hpost⟩ := h
      exact ⟨s, u, ht, hq, himp a s u hpost⟩
  case h_2 => exact h
  case h_3 => exact h

theorem Follows.get {f : Position → CheckedReader β} (hf : Follows result (f p) p t post') :
    Follows result (get >>= f) p t post' :=
  Follows.step (s := []) rfl hf

theorem Follows.peek {f : Option CodePoint → CheckedReader β} (h : Leaves text p t) (k : Nat)
    (hf : Follows result (f t[k]?) p t post') : Follows result (peek text k >>= f) p t post' :=
  Follows.step (s := []) (run_peek h k) hf

theorem Follows.take {f : CodePoint → CheckedReader β} (h : Leaves text p (c :: t))
    (hf : Follows result (f c) (p.next c) t fun b u v => post' b (c :: u) v) :
    Follows result (take text >>= f) p (c :: t) post' :=
  Follows.step (s := [c]) (run_take h) hf

/-- What a form has done: it has taken some of the text, its node ends where the form does,
and the other reader stands there with the node delivered. -/
structure Placed (result : Except ReadFailure Node) (p : Position) (st : Stack)
    (found : Option Node) (s u : Text) : Prop where
  taken : s ≠ []
  stop_eq : ∀ n ∈ found, n.stop = p.after s
  comes : result = (between (p.after s) (st.deliverAll found.toList)).read u

theorem Placed.offset_lt {st : Stack} {found : Option Node} {u : Text}
    (h : Placed result p st found s u) : p.offset < (p.after s).offset := by
  have htaken := List.length_pos_iff.mpr h.taken
  rw [Position.after_offset]
  omega

theorem Placed.prepend {st : Stack} {found : Option Node} {u v : Text}
    (h : Placed result (p.after s) st found u v) : Placed result p st found (s ++ u) v where
  taken := by simp [h.taken]
  stop_eq n hn := by rw [h.stop_eq n hn, Position.after_append]
  comes := by rw [Position.after_append]; exact h.comes

/-- A node that ends here, and began at `p`. -/
theorem follows_node {st : Stack} {shape : Shape} {forms : List Node} (hs : s ≠ [])
    (h : result = (between (p.after s) (st.deliver (.mk shape p (p.after s) forms))).read t) :
    Follows result (do return .mk shape p (← get) forms) (p.after s) t fun n u v =>
      Placed result p st (some n) (s ++ u) v := by
  refine Follows.get (Follows.pure ?_)
  rw [List.append_nil]
  refine ⟨hs, fun n hn => ?_, h⟩
  obtain rfl : Node.mk shape p (p.after s) forms = n := by simpa using hn
  rfl

theorem follows_some {x : CheckedReader Node} {st : Stack}
    (h : Follows result x p t fun n => Placed result p st (some n)) :
    Follows result (do return some (← x)) p t (Placed result p st) := by
  refine h.bind fun n s u _ hn => Follows.pure ?_
  rw [List.append_nil]
  exact hn

/-! ## Strings and tokens -/

section

variable {st : Stack} {start place : Position} {read : Text}

theorem read_invalidDigits (hd : Scalar.fourHex? (t.take 4) = none) :
    (⟨p, .digits start read place [], st⟩ : Reader).read t =
      Reader.failAt (.invalidEscape (t.take 4)) place := by
  match t with
  | a :: b :: c :: e :: t =>
      have hd : Scalar.fourHex? [a, b, c, e] = none := hd
      simp [read_cons, advance, addDigit, hd, Except.map, Except.bind, Reader.failAt]
  | [] => rfl
  | [a] => rfl
  | [a, b] => rfl
  | [a, b, c] => rfl

theorem follows_escape {pattern : Bool} (h : Leaves text p t)
    (hresult : result = (⟨p, .escape pattern start read place, st⟩ : Reader).read t) :
    Follows result (escape text pattern start place) p t fun v s u =>
      result = (⟨p.after s, .string pattern start (v.reverse ++ read), st⟩ : Reader).read u := by
  refine Follows.peek h 0 ?_
  cases t with
  | nil => exact Follows.failAt hresult
  | cons c t =>
      refine Follows.take h ?_
      cases pattern with
      | true => exact Follows.pure hresult
      | false =>
          simp only [read_cons, advance, unescape, Bool.false_eq_true, if_false] at hresult ⊢
          cases hc : Scalar.escape? c with
          | some d =>
              rw [hc] at hresult
              exact Follows.pure hresult
          | none =>
              rw [hc] at hresult
              by_cases hu : c = 'u'
              · subst hu
                rw [if_pos rfl] at hresult ⊢
                refine Follows.get ?_
                rw [h.next.drop_eq]
                obtain ⟨digits, u, rfl, hdigits⟩ :
                    ∃ digits u, t = digits ++ u ∧ t.take 4 = digits :=
                  ⟨_, _, (List.take_append_drop 4 t).symm, rfl⟩
                rw [hdigits]
                cases hd : Scalar.fourHex? digits with
                | none =>
                    have hfail := hresult.trans (read_invalidDigits (by rw [hdigits, hd]))
                    rw [hdigits] at hfail
                    exact Follows.failAt hfail
                | some d =>
                    refine Follows.step (run_skip h.next) (Follows.pure ?_)
                    rw [List.append_nil]
                    exact hresult.trans (read_digits hd _ start place st read u)
              · rw [if_neg hu] at hresult ⊢
                exact Follows.failAt hresult

theorem follows_quoted {pattern : Bool} (h : Leaves text p t) (hn : t.length < n)
    (hresult : result = (⟨p, .string pattern start read, st⟩ : Reader).read t) :
    Follows result (quoted text pattern start n) p t fun v s u =>
      result = (between (p.after s) (st.deliver
        (scalar (.string (read.reverse ++ v)) start (p.after s)))).read u := by
  induction n generalizing p t read with
  | zero => cases hn
  | succ n ih =>
      refine Follows.peek h 0 ?_
      cases t with
      | nil => exact Follows.failAt hresult
      | cons c t =>
          have hn : t.length < n := Nat.lt_of_succ_lt_succ hn
          refine Follows.get (Follows.take h ?_)
          by_cases hquote : c = '"'
          · subst hquote
            rw [if_pos rfl]
            refine Follows.pure ?_
            rw [List.append_nil]
            exact hresult
          rw [if_neg hquote]
          simp only [read_cons, advance, hquote, if_false] at hresult
          by_cases hbackslash : c = '\\'
          · rw [if_pos hbackslash] at hresult ⊢
            refine (follows_escape h.next hresult).bind fun v s u ht hv => ?_
            subst ht
            have hlength : u.length < n := by
              rw [List.length_append] at hn
              omega
            refine (ih h.next.after hlength hv).bind fun w s' u' _ hw => Follows.pure ?_
            simpa [Position.after_append] using hw
          · rw [if_neg hbackslash] at hresult ⊢
            refine (ih h.next hn hresult).bind fun w s u _ hw => Follows.pure ?_
            simpa [Position.after_append] using hw

variable (hbound : text.length < bound)

include hbound

theorem follows_string (pattern : Bool) (h : Leaves text p (openingQuote pattern ++ t))
    (hresult : result = (between p st).read (openingQuote pattern ++ t)) :
    Follows result (string text bound pattern) p (openingQuote pattern ++ t) fun n =>
      Placed result p st (some n) := by
  have hskip : (if pattern then 2 else 1) = (openingQuote pattern).length := by
    cases pattern <;> rfl
  rw [read_openingQuote] at hresult
  refine Follows.get ?_
  rw [hskip]
  have hquoted := follows_quoted h.after (h.after.length_lt hbound) hresult
  refine Follows.step (run_skip h) (hquoted.bind ?_)
  intro v s u _ hv
  rw [← Position.after_append] at hv ⊢
  simp only [← List.append_assoc]
  refine follows_node ?_ hv
  cases pattern <;> simp [openingQuote]

theorem follows_character (h : Leaves text p ('\\' :: t))
    (hresult : result = (between p st).read ('\\' :: t)) :
    Follows result (character text bound) p ('\\' :: t) fun n =>
      Placed result p st (some n) := by
  refine Follows.get (Follows.take h (Follows.peek h.next 0 ?_))
  cases t with
  | nil => exact Follows.failAt hresult
  | cons c t =>
      obtain ⟨token, rest, rfl, htoken, hrest⟩ := exists_token t
      rw [read_character htoken hrest, complete, List.reverse_reverse] at hresult
      refine Follows.take h.next (Follows.step (run_token h.next.next htoken hrest hbound) ?_)
      dsimp only
      cases hv : Scalar.character? (c :: token) with
      | none =>
          rw [hv] at hresult
          exact Follows.failAt hresult
      | some v =>
          rw [hv] at hresult
          exact follows_node (s := CodePoint.ofChar '\\' :: c :: token) (by simp) hresult

theorem follows_symbolic (h : Leaves text p ('#' :: '#' :: t))
    (hresult : result = (between p st).read ('#' :: '#' :: t)) :
    Follows result (symbolic text bound) p ('#' :: '#' :: t) fun n =>
      Placed result p st (some n) := by
  obtain ⟨token, rest, rfl, htoken, hrest⟩ := exists_token t
  rw [read_symbolic htoken hrest, complete, List.reverse_reverse] at hresult
  refine Follows.get (Follows.step (run_skip (s := ['#', '#']) h) ?_)
  refine Follows.step (run_token h.next.next htoken hrest hbound) ?_
  cases hv : Scalar.ofSymbolic? token with
  | none =>
      rw [hv] at hresult
      exact Follows.failAt hresult
  | some v =>
      rw [hv] at hresult
      exact follows_node (s := CodePoint.ofChar '#' :: CodePoint.ofChar '#' :: token) (by simp)
        hresult

/-- An atom has a token: it holds at least the code point that the form begins with. -/
theorem follows_atom (hbare : IsBare [c]) (h : Leaves text p (c :: t))
    (hresult : result = (between p st).read (c :: t)) :
    Follows result (atom text bound) p (c :: t) fun n => Placed result p st (some n) := by
  obtain ⟨token, rest, rfl, htoken, hrest⟩ := exists_token t
  obtain ⟨hc, hfirst⟩ := hbare
  have hbare : IsBare (c :: token) :=
    ⟨isToken_cons.mpr ⟨(isToken_cons.mp hc).1, htoken⟩, hfirst⟩
  rw [← List.cons_append] at h hresult ⊢
  rw [read_bare hbare hrest, complete, List.reverse_reverse] at hresult
  refine Follows.get (Follows.step (run_token h hbare.1 hrest hbound) ?_)
  rw [List.isEmpty_cons, if_neg Bool.false_ne_true]
  cases hv : Scalar.ofToken (c :: token) with
  | error e =>
      rw [hv] at hresult
      cases e <;> exact hresult
  | ok v =>
      rw [hv] at hresult
      exact follows_node (by simp) hresult

end

end

end CheckedReader

end EdnLint
