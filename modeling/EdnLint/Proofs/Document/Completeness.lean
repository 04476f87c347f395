import EdnLint.Proofs.Document.Grammar

/-!
# What the grammar derives is read

The reader that stands in front of a derived text delivers the nodes of the text to
its stack and stands behind it, whatever the stack holds and whatever follows
(`Derives.read_append`). A lexeme is read code point by code point in a mode of its
own, so each kind of lexeme has a lemma that takes the reader over it in one step.
-/

namespace EdnLint

open Grammar

namespace Stack

/-- Hands finished nodes to the innermost form, one after the other. -/
def deliverAll (s : Stack) (ns : List Node) : Stack := ns.foldl deliver s

@[simp] theorem deliverAll_nil (s : Stack) : s.deliverAll [] = s := rfl

@[simp] theorem deliverAll_singleton (s : Stack) (n : Node) : s.deliverAll [n] = s.deliver n := rfl

/-- The last part of a wrapper completes it. -/
theorem deliver_wrapper (s : Stack) (shape : Shape) (part : Part) (start : Position)
    (forms : List Node) (n : Node) :
    (s.push (.pending (some shape) part [] start forms)).deliver n =
      s.deliver (.mk shape start n.stop (n :: forms).reverse) := rfl

theorem deliverAll_append (s : Stack) (ms ns : List Node) :
    s.deliverAll (ms ++ ns) = (s.deliverAll ms).deliverAll ns :=
  List.foldl_append

theorem deliverAll_collection (shape : Shape) (closer : CodePoint) (start : Position)
    (forms : List Node) (frames : List Frame) (document ns : List Node) :
    (⟨.collection shape closer start forms :: frames, document⟩ : Stack).deliverAll ns =
      ⟨.collection shape closer start (ns.reverse ++ forms) :: frames, document⟩ := by
  induction ns generalizing forms with
  | nil => rfl
  | cons n ns ih =>
      rw [List.reverse_cons, List.append_assoc]
      exact ih (n :: forms)

theorem deliverAll_document (document ns : List Node) :
    (⟨[], document⟩ : Stack).deliverAll ns = ⟨[], ns.reverse ++ document⟩ := by
  induction ns generalizing document with
  | nil => rfl
  | cons n ns ih =>
      rw [List.reverse_cons, List.append_assoc]
      exact ih (n :: document)

end Stack

namespace Reader

/-- The document that the reader comes to if `t` is what is left of the text. -/
def read (r : Reader) (t : Text) : Except ReadFailure Node := (r.feed t).bind finish

/-- The reader between two lexemes. -/
def between (p : Position) (s : Stack) : Reader := ⟨p, .blank, s⟩

theorem parse_eq_read (t : Text) : parse t = (between .first .empty).read t := by
  unfold parse read
  change _ = (Reader.initial.feed t).bind finish
  cases Reader.initial.feed t <;> rfl

theorem read_nil (r : Reader) : r.read [] = r.finish := rfl

theorem read_cons (p : Position) (m : Mode) (s : Stack) (c : CodePoint) (t : Text) :
    (⟨p, m, s⟩ : Reader).read (c :: t) =
      (advance s p c m).bind fun next => (⟨p.next c, next.1, next.2⟩ : Reader).read t := by
  simp only [read, feed, step]
  cases advance s p c m <;> rfl

theorem between_read_cons (p : Position) (s : Stack) (c : CodePoint) (t : Text) :
    (between p s).read (c :: t) =
      (begin s p c).bind fun next => (⟨p.next c, next.1, next.2⟩ : Reader).read t :=
  read_cons p .blank s c t

/-- The modes that code points are added to, up to a terminator or the end of the
text. -/
inductive Gathers : (Text → Mode) → Prop
  | token (start : Position) : Gathers (.token start)
  | tag (start : Position) : Gathers (.tag start)
  | symbolic (start : Position) : Gathers (.symbolic start)
  | character (start : Position) : Gathers (.character start)

theorem Gathers.advance {M : Text → Mode} (hM : Gathers M) (s : Stack) (p : Position)
    (c : CodePoint) (read : Text) :
    advance s p c (M read) = extend (M read) (M (c :: read)) s p c := by
  cases hM <;> rfl

theorem Gathers.finish {M : Text → Mode} (hM : Gathers M) (s : Stack) (p : Position)
    (read : Text) :
    finish ⟨p, M read, s⟩ = (complete s p (M read)).bind fun s => (between p s).finish := by
  cases hcomplete : complete s p (M read) with
  | ok s' => cases hM <;> simp only [Reader.finish, hcomplete] <;> rfl
  | error e => cases hM <;> simp only [Reader.finish, hcomplete] <;> rfl

/-- A token is read to its end and completed there. -/
theorem Gathers.read_append {M : Text → Mode} (hM : Gathers M) {token rest : Text}
    (htoken : IsToken token) (hrest : EndsToken rest) (p : Position) (s : Stack) (read : Text) :
    (⟨p, M read, s⟩ : Reader).read (token ++ rest) =
      (complete s (p.after token) (M (token.reverse ++ read))).bind fun s =>
        (between (p.after token) s).read rest := by
  induction token generalizing p read with
  | nil =>
      cases rest with
      | nil => exact hM.finish s p read
      | cons c rest =>
          have hc : c.isTerminator = true := hrest c rfl
          simp only [List.nil_append, List.reverse_nil, Position.after_nil, read_cons, hM.advance,
            extend, hc, if_true, between_read_cons]
          cases complete s p (M read) <;> rfl
  | cons c token ih =>
      obtain ⟨hc, htoken⟩ := isToken_cons.mp htoken
      have ih := ih htoken (p.next c) (c :: read)
      simp only [List.cons_append, read_cons, hM.advance, extend, hc]
      rw [List.reverse_cons, List.append_assoc]
      exact ih

theorem read_comment {s rest : Text} (hs : ∀ c ∈ s, c ≠ '\n') (hrest : EndsLine rest)
    (p : Position) (st : Stack) :
    (⟨p, .comment, st⟩ : Reader).read (s ++ rest) = (between (p.after s) st).read rest := by
  induction s generalizing p with
  | nil =>
      cases rest with
      | nil => rfl
      | cons c rest =>
          obtain rfl : c = '\n' := hrest c rfl
          rfl
  | cons c s ih =>
      have hc : c ≠ '\n' := hs c List.mem_cons_self
      have ih := ih (fun d hd => hs d (List.mem_cons_of_mem c hd)) (p.next c)
      simp only [List.cons_append, read_cons, advance, hc, if_false]
      exact ih

/-- The four digits of an escape. -/
theorem read_digits {digits : Text} {d : CodePoint} (hd : Scalar.fourHex? digits = some d)
    (p start place : Position) (st : Stack) (read t : Text) :
    (⟨p, .digits start read place [], st⟩ : Reader).read (digits ++ t) =
      (⟨p.after digits, .string false start (d :: read), st⟩ : Reader).read t := by
  have hlength : digits.length = 4 := by
    unfold Scalar.fourHex? at hd
    split at hd
    · assumption
    · cases hd
  obtain ⟨a, b, c, e, rfl⟩ : ∃ a b c e, digits = [a, b, c, e] := by
    match digits, hlength with
    | [a, b, c, e], _ => exact ⟨a, b, c, e, rfl⟩
  simp [read_cons, advance, addDigit, hd, Except.map, Except.bind]

/-- What stands between quotes is gathered as what it means. -/
theorem read_quoted {pattern : Bool} {s v : Text} (h : Quoted pattern s v) (p start : Position)
    (st : Stack) (read t : Text) :
    (⟨p, .string pattern start read, st⟩ : Reader).read (s ++ t) =
      (⟨p.after s, .string pattern start (v.reverse ++ read), st⟩ : Reader).read t := by
  induction h generalizing p read with
  | nil => rfl
  | plain hquote hbackslash _ ih =>
      simp only [List.cons_append, read_cons, advance, hquote, hbackslash, if_false]
      rw [List.reverse_cons, List.append_assoc]
      exact ih _ _
  | kept _ ih =>
      rw [List.reverse_cons, List.reverse_cons, List.append_assoc, List.append_assoc]
      exact ih _ _
  | @escape c d s v hc _ ih =>
      have hstep : (⟨p, .string false start read, st⟩ : Reader).read ('\\' :: c :: (s ++ t)) =
          (⟨(p.next '\\').next c, .string false start (d :: read), st⟩ : Reader).read (s ++ t) := by
        rw [read_cons]
        change (⟨_, .escape false start read p, st⟩ : Reader).read (c :: (s ++ t)) = _
        simp [read_cons, advance, unescape, hc, Except.map, Except.bind]
      rw [List.reverse_cons, List.append_assoc]
      exact hstep.trans (ih _ _)
  | digits hd _ ih =>
      rw [List.cons_append, List.cons_append, List.append_assoc, List.reverse_cons,
        List.append_assoc, Position.after_cons, Position.after_cons, Position.after_append]
      exact (read_digits hd _ _ _ _ _ _).trans (ih _ _)

theorem read_openingQuote (pattern : Bool) (p : Position) (st : Stack) (t : Text) :
    (between p st).read (openingQuote pattern ++ t) =
      (⟨p.after (openingQuote pattern), .string pattern p [], st⟩ : Reader).read t := by
  cases pattern <;> rfl

theorem read_closingQuote (pattern : Bool) (p start : Position) (st : Stack) (read t : Text) :
    (⟨p, .string pattern start read, st⟩ : Reader).read ('"' :: t) =
      (between (p.next '"')
        (st.deliver (scalar (.string read.reverse) start (p.next '"')))).read t := by
  rfl

theorem read_opening {opening : Text} {shape : Shape} {closer : CodePoint}
    (h : Brackets opening shape closer) (p : Position) (st : Stack) (t : Text) :
    (between p st).read (opening ++ t) =
      (between (p.after opening) (st.push (.collection shape closer p []))).read t := by
  cases h <;> rfl

theorem begin_closer {c : CodePoint} (hc : c.isCloser = true) (p : Position) (st : Stack) :
    begin st p c =
      match st.close c p with
      | .ok s => .ok (.blank, s)
      | .error e => .error (.error e) := by
  have hcloser : c = ')' ∨ c = ']' ∨ c = '}' := by
    simpa [CodePoint.isCloser, or_assoc] using hc
  rcases hcloser with rfl | rfl | rfl <;> rfl

theorem read_closer {opening : Text} {shape : Shape} {closer : CodePoint}
    (h : Brackets opening shape closer) (p start : Position) (forms : List Node)
    (frames : List Frame) (document : List Node) (t : Text) :
    (between p ⟨.collection shape closer start forms :: frames, document⟩).read (closer :: t) =
      (between (p.next closer) (Stack.deliverTo document
        (.mk shape start (p.next closer) forms.reverse) frames)).read t := by
  have hc : closer.isCloser = true := by cases h <;> rfl
  rw [between_read_cons, begin_closer hc]
  simp only [Stack.close, if_true]
  rfl

theorem read_bare {token rest : Text} (hbare : IsBare token) (hrest : EndsToken rest)
    (p : Position) (st : Stack) :
    (between p st).read (token ++ rest) =
      (complete st (p.after token) (.token p token.reverse)).bind fun s =>
        (between (p.after token) s).read rest := by
  obtain ⟨htoken, c, hc, hbackslash, hhash, hcaret, hquote⟩ := hbare
  cases token with
  | nil => cases hc
  | cons d token =>
      obtain rfl : d = c := by simpa using hc
      obtain ⟨hd, htoken⟩ := isToken_cons.mp htoken
      have hbegin : begin st p d = .ok (.token p [d], st) := by
        simp only [CodePoint.isTerminator, Bool.or_eq_false_iff, decide_eq_false_iff_not] at hd
        simp_all [begin, opening?]
      rw [List.cons_append, between_read_cons, hbegin, List.reverse_cons]
      exact (Gathers.token p).read_append htoken hrest (p.next d) st [d]

theorem read_character {token rest : Text} (htoken : IsToken token) (hrest : EndsToken rest)
    (p : Position) (st : Stack) (c : CodePoint) :
    (between p st).read ('\\' :: c :: (token ++ rest)) =
      (complete st (p.after ('\\' :: c :: token)) (.character p (c :: token).reverse)).bind fun s =>
        (between (p.after ('\\' :: c :: token)) s).read rest := by
  rw [List.reverse_cons]
  exact (Gathers.character p).read_append htoken hrest ((p.next '\\').next c) st [c]

theorem read_symbolic {token rest : Text} (htoken : IsToken token) (hrest : EndsToken rest)
    (p : Position) (st : Stack) :
    (between p st).read ('#' :: '#' :: (token ++ rest)) =
      (complete st (p.after ('#' :: '#' :: token)) (.symbolic p token.reverse)).bind fun s =>
        (between (p.after ('#' :: '#' :: token)) s).read rest := by
  have hread := (Gathers.symbolic p).read_append htoken hrest ((p.next '#').next '#') st []
  rw [List.append_nil] at hread
  exact hread

theorem read_tag {tag rest : Text} (htag : IsTag tag) (hrest : EndsToken rest)
    (p : Position) (st : Stack) :
    (between p st).read ('#' :: (tag ++ rest)) =
      (between (p.after ('#' :: tag))
        (st.push (.pending (some (.tagged tag)) (.taggedForm tag) [] p []))).read rest := by
  obtain ⟨htoken, c, hc, hunderscore, hhash⟩ := htag
  cases tag with
  | nil => cases hc
  | cons d tag =>
      obtain rfl : d = c := by simpa using hc
      obtain ⟨hd, htoken⟩ := isToken_cons.mp htoken
      have hdispatch : dispatch p st d = .ok (.tag p [d], st) := by
        have hbrace : d ≠ '{' := by
          rintro rfl
          cases hd
        have hquote : d ≠ '"' := by
          rintro rfl
          cases hd
        simp [dispatch, hbrace, hquote, hunderscore, hhash, hd]
      rw [between_read_cons]
      change (⟨p.next '#', .dispatch p, st⟩ : Reader).read (d :: (tag ++ rest)) = _
      rw [read_cons, advance, hdispatch]
      refine Eq.trans ((Gathers.tag p).read_append htoken hrest _ st [d]) ?_
      simp [complete, Except.bind]

end Reader

open Reader

/-- Reading a derived text delivers its nodes and goes on with what follows. -/
theorem Grammar.Derives.read_append {k : Category} {p : Position} {s rest : Text} {ns : List Node}
    (h : Derives k p s rest ns) (st : Stack) :
    (between p st).read (s ++ rest) = (between (p.after s) (st.deliverAll ns)).read rest := by
  induction h generalizing st with
  | white hc =>
      simp only [List.singleton_append, between_read_cons, begin, hc, if_true]
      rfl
  | comment hs hends => exact read_comment hs hends _ st
  | discard _ ih => exact ih (st.push (.pending none .discardedForm [] _ []))
  | @collection p opening s rest shape closer forms hb _ ih =>
      have htext : opening ++ s ++ [closer] ++ rest = opening ++ (s ++ closer :: rest) := by simp
      rw [htext, read_opening hb, ih, Stack.push, Stack.deliverAll_collection, read_closer hb]
      simp [spanning, Position.after_append, Stack.deliver]
  | @string pattern p s v rest hq =>
      have htext : openingQuote pattern ++ s ++ [CodePoint.ofChar '"'] ++ rest =
          openingQuote pattern ++ (s ++ CodePoint.ofChar '"' :: rest) := by simp
      rw [htext, read_openingQuote, read_quoted hq, read_closingQuote]
      simp [spanning, Position.after_append, scalar]
  | @character p c token v rest ht hends hv =>
      refine Eq.trans (read_character ht hends p st c) ?_
      simp [complete, hv, spanning, scalar, Except.bind]
  | @symbolic p token rest a ht hends hv =>
      refine Eq.trans (read_symbolic ht hends p st) ?_
      simp [complete, hv, spanning, scalar, Except.bind]
  | @tagged p tag s rest n htag hends hn ih =>
      rw [List.cons_append, List.append_assoc, read_tag htag hends, ih,
        Stack.deliverAll_singleton, Stack.deliver_wrapper, hn.stop_eq (.inr rfl) n (by simp)]
      simp [spanning, Position.after_append]
  | @metadata p s u rest m n _ hn ihm ihn =>
      rw [List.cons_append, List.append_assoc]
      -- the first form completes a part of the pending node, the second one the node
      have hm := ihm (st.push (.pending (some .metadata) .metadata [.metadataTarget] p []))
      have hn' := ihn (st.push (.pending (some .metadata) .metadataTarget [] p [m]))
      refine Eq.trans hm (Eq.trans hn' ?_)
      rw [Stack.deliverAll_singleton, Stack.deliver_wrapper, hn.stop_eq (.inr rfl) n (by simp)]
      simp [spanning, Position.after_append]
  | @quote p s rest n hn ih =>
      refine Eq.trans (ih (st.push (.pending (some .quote) .quotedForm [] p []))) ?_
      rw [Stack.deliverAll_singleton, Stack.deliver_wrapper, hn.stop_eq (.inr rfl) n (by simp)]
      simp [spanning]
  | @atom p token rest a hbare hends ha =>
      rw [read_bare hbare hends]
      simp [complete, ha, spanning, scalar, Except.bind]
  | required _ ih => exact ih st
  | skip hk _ _ ihs ihn =>
      rw [List.append_assoc, ihs, Stack.deliverAll_nil, ihn, Position.after_append]
  | nil => rfl
  | cons hk _ _ ihs ihn =>
      rw [List.append_assoc, ihs, ihn, Position.after_append, Stack.deliverAll_append]

end EdnLint
