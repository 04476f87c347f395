import EdnLint.Proofs.Document.Completeness

/-!
# What is read is derived by the grammar

A reader that comes to the end of its text without a failure has a piece of a
sequence in front of it, or nothing of a sequence can follow (`Recognized`). This
holds of a text if it holds of all that is left behind its first code point: the
collections and the forms that are required there are put together from shorter
texts. As the reader takes a derived text in one step, it never has to be followed
inside of one.
-/

namespace EdnLint

open Grammar

namespace Grammar

/-- Nothing of a sequence can follow: the text ends here, or a collection does. -/
def Halts (t : Text) : Prop := ∀ c ∈ t.head?, c.isCloser = true

/-- A piece of a sequence stands at the front of the text. -/
def StartsPiece (p : Position) (t : Text) : Prop :=
  ∃ k s rest ns, k.isPiece = true ∧ t = s ++ rest ∧ Derives k p s rest ns

theorem exists_span (stop : CodePoint → Bool) (t : Text) :
    ∃ s rest, t = s ++ rest ∧ (∀ c ∈ s, stop c = false) ∧ ∀ c ∈ rest.head?, stop c = true := by
  induction t with
  | nil => exact ⟨[], [], rfl, by simp, by simp⟩
  | cons c t ih =>
      cases hc : stop c with
      | true => exact ⟨[], c :: t, rfl, by simp, by simp [hc]⟩
      | false =>
          obtain ⟨s, rest, rfl, hs, hrest⟩ := ih
          exact ⟨c :: s, rest, rfl, List.forall_mem_cons.mpr ⟨hc, hs⟩, hrest⟩

theorem exists_token (t : Text) :
    ∃ token rest, t = token ++ rest ∧ IsToken token ∧ EndsToken rest :=
  exists_span CodePoint.isTerminator t

theorem startsPiece_comment (p : Position) (t : Text) : StartsPiece p (';' :: t) := by
  obtain ⟨s, rest, rfl, hs, hrest⟩ := exists_span (fun c => decide (c = CodePoint.ofChar '\n')) t
  refine ⟨.blank, ';' :: s, rest, [], rfl, rfl, .comment (fun c hc => ?_) fun c hc => ?_⟩
  · simpa using hs c hc
  · simpa using hrest c hc

end Grammar

namespace Reader

variable {p start place : Position} {st : Stack} {read t : Text} {tree : Node}

theorem exists_digits (h : (⟨p, .digits start read place [], st⟩ : Reader).read t = .ok tree) :
    ∃ digits d rest, t = digits ++ rest ∧ Scalar.fourHex? digits = some d := by
  match t with
  | a :: b :: c :: e :: rest =>
      cases hd : Scalar.fourHex? [a, b, c, e] with
      | some d => exact ⟨[a, b, c, e], d, rest, rfl, hd⟩
      | none => simp [read_cons, advance, addDigit, hd, Except.map, Except.bind, failAt] at h
  | [] => cases h
  | [a] => cases h
  | [a, b] => cases h
  | [a, b, c] => cases h

/-- What stands behind a backslash in a string is an escape, and the string goes on
behind it. -/
theorem exists_escape {pattern : Bool}
    (h : (⟨p, .escape pattern start read place, st⟩ : Reader).read t = .ok tree) :
    ∃ s v rest, t = s ++ rest ∧
      (∀ u w, Quoted pattern u w → Quoted pattern ('\\' :: (s ++ u)) (v ++ w)) ∧
      ∃ p' read', (⟨p', .string pattern start read', st⟩ : Reader).read rest = .ok tree := by
  cases t with
  | nil => cases h
  | cons c t =>
      rw [read_cons, advance] at h
      cases pattern with
      | true => exact ⟨[c], ['\\', c], t, rfl, fun u w hq => .kept hq, _, _, h⟩
      | false =>
          simp only [unescape] at h
          cases hc : Scalar.escape? c with
          | some d =>
              rw [hc] at h
              exact ⟨[c], [d], t, rfl, fun u w hq => .escape hc hq, _, _, h⟩
          | none =>
              rw [hc] at h
              by_cases hu : c = 'u'
              · subst hu
                obtain ⟨digits, d, rest, rfl, hd⟩ := exists_digits h
                refine ⟨CodePoint.ofChar 'u' :: digits, [d], rest, rfl, ?_, _, _,
                  (read_digits hd _ start place st read rest).symm.trans h⟩
                intro u w hq
                exact .digits hd hq
              · simp [hu, failAt, Except.map, Except.bind] at h

/-- A string that is read to its end is closed by a quote. -/
theorem exists_quoted {pattern : Bool}
    (h : (⟨p, .string pattern start read, st⟩ : Reader).read t = .ok tree) :
    ∃ s v rest, t = s ++ CodePoint.ofChar '"' :: rest ∧ Quoted pattern s v := by
  -- an escape takes up to six code points at once, so the induction is on the length
  induction hlength : t.length using Nat.strongRecOn generalizing t p read with
  | ind n ih =>
      subst hlength
      cases t with
      | nil => cases h
      | cons c t =>
          by_cases hquote : c = '"'
          · subst hquote
            exact ⟨[], [], t, rfl, .nil⟩
          by_cases hbackslash : c = '\\'
          · subst hbackslash
            obtain ⟨e, w, u, rfl, hescape, p', read', h⟩ := exists_escape h
            have hlt : u.length < (CodePoint.ofChar '\\' :: (e ++ u)).length := by
              simp only [List.length_cons, List.length_append]
              omega
            obtain ⟨s, v, rest, rfl, hq⟩ := ih u.length hlt h rfl
            exact ⟨_, _, rest, by simp, hescape s v hq⟩
          · simp only [read_cons, advance, hquote, hbackslash, if_false] at h
            obtain ⟨s, v, rest, rfl, hq⟩ := ih t.length (by simp) h rfl
            exact ⟨c :: s, c :: v, rest, rfl, .plain hquote hbackslash hq⟩

/-- A closing delimiter finds a collection to close, and the end of the text nothing
open. -/
theorem exists_closer {shape : Shape} {closer : CodePoint} {forms : List Node} (hhalts : Halts t)
    (h : (between p (st.push (.collection shape closer start forms))).read t = .ok tree) :
    ∃ rest, t = closer :: rest := by
  cases t with
  | nil => cases h
  | cons c t =>
      rw [between_read_cons, begin_closer (hhalts c rfl)] at h
      by_cases hc : c = closer
      · exact ⟨t, by rw [hc]⟩
      · simp [Stack.close, Stack.push, hc, Except.bind] at h

theorem not_halts_pending {shape : Option Shape} {part : Part} {later : List Part}
    {forms : List Node}
    (h : (between p (st.push (.pending shape part later start forms))).read t = .ok tree) :
    ¬ Halts t := by
  intro hhalts
  cases t with
  | nil => cases h
  | cons c t =>
      rw [between_read_cons, begin_closer (hhalts c rfl)] at h
      cases h

theorem eq_nil_of_halts {document : List Node} (hhalts : Halts t)
    (h : (between p ⟨[], document⟩).read t = .ok tree) : t = [] := by
  cases t with
  | nil => rfl
  | cons c t =>
      rw [between_read_cons, begin_closer (hhalts c rfl)] at h
      cases h

/-- Whoever reads a text to its end finds a piece of a sequence at its front, unless
nothing of a sequence can follow. -/
def Recognized (t : Text) : Prop :=
  ∀ p st tree, (between p st).read t = .ok tree → Halts t ∨ StartsPiece p t

/-- What is left of the text is recognized, wherever the reader stands in it. -/
def RecognizedWithin (t : Text) : Prop := ∀ u, u <:+ t → Recognized u

theorem RecognizedWithin.of_append {s u : Text} (h : RecognizedWithin (s ++ u)) :
    RecognizedWithin u :=
  fun v hv => h v (hv.trans (List.suffix_append s u))

theorem exists_sequence (hrec : RecognizedWithin t)
    (h : (between p st).read t = .ok tree) :
    ∃ s rest ns, t = s ++ rest ∧ Derives .sequence p s rest ns ∧ Halts rest := by
  induction hlength : t.length using Nat.strongRecOn generalizing t p st with
  | ind n ih =>
      subst hlength
      rcases hrec t (List.suffix_refl t) p st tree h with hhalts | ⟨k, s, u, ns, hk, rfl, hd⟩
      · exact ⟨[], t, [], rfl, .nil, hhalts⟩
      · rw [hd.read_append] at h
        obtain ⟨s', rest, ns', rfl, hd', hhalts⟩ :=
          ih u.length (hd.length_lt_of_isPiece hk) hrec.of_append h rfl
        exact ⟨s ++ s', rest, ns ++ ns', by simp, .cons hk hd hd', hhalts⟩

theorem exists_required {shape : Option Shape} {part : Part} {later : List Part}
    {forms : List Node} (hrec : RecognizedWithin t)
    (h : (between p (st.push (.pending shape part later start forms))).read t = .ok tree) :
    ∃ s rest n, t = s ++ rest ∧ Derives .required p s rest [n] := by
  induction hlength : t.length using Nat.strongRecOn generalizing t p with
  | ind n ih =>
      subst hlength
      rcases hrec t (List.suffix_refl t) p _ tree h with hhalts | ⟨k, s, u, ns, hk, rfl, hd⟩
      · exact absurd hhalts (not_halts_pending h)
      · by_cases hform : k = .form
        · subst hform
          obtain ⟨n, rfl⟩ := hd.exists_node (.inl rfl)
          exact ⟨s, u, n, rfl, .required hd⟩
        · have hskipped := Category.isSkipped_of_isPiece hk hform
          obtain rfl := hd.eq_nil_of_isSkipped hskipped
          rw [hd.read_append, Stack.deliverAll_nil] at h
          obtain ⟨s', rest, n, rfl, hd'⟩ :=
            ih u.length (hd.length_lt_of_isPiece hk) hrec.of_append h rfl
          exact ⟨s ++ s', rest, n, by simp, .skip hskipped hd hd'⟩

theorem startsPiece_opening {opening : Text} {shape : Shape} {closer : CodePoint}
    (hb : Brackets opening shape closer) (hrec : RecognizedWithin t)
    (h : (between p st).read (opening ++ t) = .ok tree) : StartsPiece p (opening ++ t) := by
  rw [read_opening hb] at h
  obtain ⟨s, rest, ns, rfl, hd, hhalts⟩ := exists_sequence hrec h
  -- behind the forms the collection is still open, so only its closer can follow
  rw [hd.read_append, Stack.push, Stack.deliverAll_collection] at h
  obtain ⟨rest, rfl⟩ := exists_closer hhalts h
  exact ⟨.form, _, rest, _, rfl, by simp, .collection hb hd⟩

theorem startsPiece_string (pattern : Bool)
    (h : (between p st).read (openingQuote pattern ++ t) = .ok tree) :
    StartsPiece p (openingQuote pattern ++ t) := by
  rw [read_openingQuote] at h
  obtain ⟨s, v, rest, rfl, hq⟩ := exists_quoted h
  exact ⟨.form, _, rest, _, rfl, by simp, .string hq⟩

theorem startsPiece_character (h : (between p st).read ('\\' :: t) = .ok tree) :
    StartsPiece p ('\\' :: t) := by
  cases t with
  | nil => cases h
  | cons c t =>
      obtain ⟨token, rest, rfl, htoken, hrest⟩ := exists_token t
      rw [read_character htoken hrest] at h
      cases hv : Scalar.character? (c :: token) with
      | none => simp [complete, hv, failAt, Except.bind] at h
      | some v => exact ⟨.form, _, rest, _, rfl, rfl, .character htoken hrest hv⟩

theorem startsPiece_symbolic (h : (between p st).read ('#' :: '#' :: t) = .ok tree) :
    StartsPiece p ('#' :: '#' :: t) := by
  obtain ⟨token, rest, rfl, htoken, hrest⟩ := exists_token t
  rw [read_symbolic htoken hrest] at h
  cases hv : Scalar.ofSymbolic? token with
  | none => simp [complete, hv, failAt, Except.bind] at h
  | some v => exact ⟨.form, _, rest, _, rfl, rfl, .symbolic htoken hrest hv⟩

theorem startsPiece_discard (hrec : RecognizedWithin t)
    (h : (between p st).read ('#' :: '_' :: t) = .ok tree) : StartsPiece p ('#' :: '_' :: t) := by
  have h' : (between ((p.next '#').next '_') (st.push
      (.pending none .discardedForm [] p []))).read t = .ok tree := h
  obtain ⟨s, rest, n, rfl, hd⟩ := exists_required hrec h'
  exact ⟨.discard, _, rest, _, rfl, rfl, .discard hd⟩

theorem startsPiece_tagged {tag : Text} (htag : IsTag tag) (hends : EndsToken t)
    (hrec : RecognizedWithin t)
    (h : (between p st).read ('#' :: (tag ++ t)) = .ok tree) :
    StartsPiece p ('#' :: (tag ++ t)) := by
  rw [read_tag htag hends] at h
  obtain ⟨s, rest, n, rfl, hd⟩ := exists_required hrec h
  exact ⟨.form, _, rest, _, rfl, by simp, .tagged htag hends hd⟩

theorem startsPiece_metadata (hrec : RecognizedWithin t)
    (h : (between p st).read ('^' :: t) = .ok tree) : StartsPiece p ('^' :: t) := by
  have h' : (between (p.next '^') (st.push
      (.pending (some .metadata) .metadata [.metadataTarget] p []))).read t = .ok tree := h
  obtain ⟨s, u, m, rfl, hm⟩ := exists_required hrec h'
  rw [hm.read_append] at h'
  obtain ⟨s', rest, n, rfl, hn⟩ := exists_required hrec.of_append h'
  exact ⟨.form, _, rest, _, rfl, by simp, .metadata hm hn⟩

theorem startsPiece_quote (hrec : RecognizedWithin t)
    (h : (between p st).read ('\'' :: t) = .ok tree) : StartsPiece p ('\'' :: t) := by
  have h' : (between (p.next '\'') (st.push
      (.pending (some .quote) .quotedForm [] p []))).read t = .ok tree := h
  obtain ⟨s, rest, n, rfl, hd⟩ := exists_required hrec h'
  exact ⟨.form, _, rest, _, rfl, rfl, .quote hd⟩

theorem startsPiece_bare {c : CodePoint} (hbare : IsBare [c])
    (h : (between p st).read (c :: t) = .ok tree) : StartsPiece p (c :: t) := by
  obtain ⟨token, rest, rfl, htoken, hrest⟩ := exists_token t
  obtain ⟨hc, hfirst⟩ := hbare
  have hbare' : IsBare (c :: token) :=
    ⟨isToken_cons.mpr ⟨(isToken_cons.mp hc).1, htoken⟩, hfirst⟩
  rw [← List.cons_append, read_bare hbare' hrest] at h
  cases ha : Scalar.ofToken (c :: token) with
  | error e =>
      rw [complete, List.reverse_reverse, ha] at h
      cases e <;> cases h
  | ok a => exact ⟨.form, _, rest, _, rfl, rfl, .atom hbare' hrest ha⟩

theorem startsPiece_hash (hrec : RecognizedWithin t)
    (h : (between p st).read ('#' :: t) = .ok tree) : StartsPiece p ('#' :: t) := by
  cases t with
  | nil => cases h
  | cons c t =>
      have hrec' : RecognizedWithin t := RecognizedWithin.of_append (s := [c]) hrec
      by_cases hbrace : c = '{'
      · subst hbrace
        exact startsPiece_opening .set hrec' h
      by_cases hquote : c = '"'
      · subst hquote
        exact startsPiece_string true h
      by_cases hunderscore : c = '_'
      · subst hunderscore
        exact startsPiece_discard hrec' h
      by_cases hhash : c = '#'
      · subst hhash
        exact startsPiece_symbolic h
      by_cases hterminator : c.isTerminator = true
      · change (⟨p.next '#', .dispatch p, st⟩ : Reader).read (c :: t) = .ok tree at h
        simp [read_cons, advance, dispatch, hbrace, hquote, hunderscore, hhash, hterminator,
          failAt, Except.bind] at h
      · obtain ⟨token, rest, rfl, htoken, hrest⟩ := exists_token t
        have htag : IsTag (c :: token) := by
          refine ⟨isToken_cons.mpr ⟨by simpa using hterminator, htoken⟩, c, rfl, ?_⟩
          exact ⟨hunderscore, hhash⟩
        rw [← List.cons_append] at h ⊢
        exact startsPiece_tagged htag hrest hrec'.of_append h

theorem recognized (t : Text) : Recognized t := by
  induction hlength : t.length using Nat.strongRecOn generalizing t with
  | ind n ih =>
      subst hlength
      intro p st tree h
      cases t with
      | nil => exact Or.inl (by simp [Halts])
      | cons c t =>
          have hrec : RecognizedWithin t := by
            intro u hu
            exact ih u.length (Nat.lt_succ_of_le hu.length_le) u rfl
          -- one case for each way that `begin` goes on: what none of them takes is a token
          by_cases hcloser : c.isCloser = true
          · exact Or.inl (by simpa [Halts] using hcloser)
          refine Or.inr ?_
          by_cases hblank : c.isBlank = true
          · exact ⟨.blank, [c], t, [], rfl, rfl, .white hblank⟩
          by_cases hsemicolon : c = ';'
          · subst hsemicolon
            exact startsPiece_comment p t
          by_cases hlist : c = '('
          · subst hlist
            exact startsPiece_opening .list hrec h
          by_cases hvector : c = '['
          · subst hvector
            exact startsPiece_opening .vector hrec h
          by_cases hmap : c = '{'
          · subst hmap
            exact startsPiece_opening .map hrec h
          by_cases hstring : c = '"'
          · subst hstring
            exact startsPiece_string false h
          by_cases hbackslash : c = '\\'
          · subst hbackslash
            exact startsPiece_character h
          by_cases hhash : c = '#'
          · subst hhash
            exact startsPiece_hash hrec h
          by_cases hcaret : c = '^'
          · subst hcaret
            exact startsPiece_metadata hrec h
          by_cases hquote : c = '\''
          · subst hquote
            exact startsPiece_quote hrec h
          · refine startsPiece_bare ⟨?_, c, rfl, hbackslash, hhash, hcaret, hquote⟩ h
            simp_all [IsToken, CodePoint.isTerminator]

end Reader

open Reader

theorem parse_of_derives {t : Text} {forms : List Node}
    (h : Derives .sequence .first t [] forms) :
    parse t = .ok (spanning .document .first t forms) := by
  have hread := h.read_append .empty
  rw [List.append_nil, ← parse_eq_read, Stack.empty, Stack.deliverAll_document] at hread
  rw [hread, read_nil]
  simp [finish, between, complete, Stack.document, spanning]

theorem exists_derives_of_parse {t : Text} {tree : Node} (h : parse t = .ok tree) :
    ∃ forms, Derives .sequence .first t [] forms ∧ tree = spanning .document .first t forms := by
  have hread := h
  rw [parse_eq_read] at hread
  obtain ⟨s, rest, forms, rfl, hd, hhalts⟩ := exists_sequence (fun u _ => recognized u) hread
  rw [hd.read_append, Stack.empty, Stack.deliverAll_document] at hread
  obtain rfl := eq_nil_of_halts hhalts hread
  rw [List.append_nil] at h ⊢
  refine ⟨forms, hd, ?_⟩
  rw [parse_of_derives hd] at h
  cases h
  rfl

/-- A text reads exactly if the grammar derives a sequence from it, and its tree is the
document of the forms of that derivation. -/
theorem parse_eq_ok_iff (t : Text) (tree : Node) :
    parse t = .ok tree ↔
      ∃ forms, Derives .sequence .first t [] forms ∧
        tree = spanning .document .first t forms := by
  constructor
  · exact exists_derives_of_parse
  · rintro ⟨forms, hd, rfl⟩
    exact parse_of_derives hd

end EdnLint
