import EdnLint.Proofs.Datum.Spaces
import EdnLint.Proofs.Lint.Placement
import EdnLint.Proofs.Text.Infix

/-!
# The wording of problems

Whether an issue is about an unknown key is read off its message: it is if the words
`unknown key` are in it. Of the other problems five quote texts that may say anything, and
the words are in their messages exactly if they are in what is quoted (`Problem.Quotes`).
The rest of a message never makes up the words. A name that is read from a document has no
space in it, and neither have numbers and the names of types; and quotation marks, escapes
and what stands around a quoted text do not go together with it.
-/

namespace EdnLint

namespace Lint

variable {a b t : Text}

theorem mark_append_iff_of_head (ha : CodePoint.ofChar 'u' ∉ a) :
    unknownKeyMark <:+: a ++ b ↔ unknownKeyMark <:+: b :=
  Text.infix_append_iff_of_head (by decide) ha

theorem mark_append_iff_of_getLast (hb : CodePoint.ofChar 'y' ∉ b) :
    unknownKeyMark <:+: a ++ b ↔ unknownKeyMark <:+: a :=
  Text.infix_append_iff_of_getLast (by decide) hb

theorem mark_separator_iff {c : CodePoint} (hc : c ∉ unknownKeyMark) :
    unknownKeyMark <:+: a ++ c :: b ↔ unknownKeyMark <:+: a ∨ unknownKeyMark <:+: b :=
  Text.infix_separator_iff (by decide) hc

theorem not_mark_of_space (ht : CodePoint.ofChar ' ' ∉ t) : ¬ unknownKeyMark <:+: t := by
  intro h
  exact ht (h.subset (by decide))

/-- The mark is in one of the texts of a list. -/
theorem mark_join_iff (pieces : List Text) :
    unknownKeyMark <:+: Text.join ", " pieces ↔ ∃ t ∈ pieces, unknownKeyMark <:+: t := by
  induction pieces with
  | nil =>
      have hnone : ¬ unknownKeyMark <:+: [] := not_mark_of_space List.not_mem_nil
      simp [hnone]
  | cons t pieces ih =>
      cases pieces with
      | nil => simp
      | cons u pieces =>
          have hjoin : Text.join ", " (t :: u :: pieces) = t ++ CodePoint.ofChar ',' ::
              ([CodePoint.ofChar ' '] ++ Text.join ", " (u :: pieces)) := by
            simp [Text.join, Text.ofString]
          rw [hjoin, mark_separator_iff (by decide), mark_append_iff_of_head (by decide), ih]
          simp

theorem not_mem_mark_of_not_printable {c : CodePoint} (hc : c.isPrintable = false) :
    c ∉ unknownKeyMark := by
  have hprintable : ∀ d ∈ unknownKeyMark, d.isPrintable = true := by decide +kernel
  intro h
  rw [hprintable c h] at hc
  cases hc

/-- The digits of an escape are not the start of the mark, not even behind a `u`. -/
theorem mark_escape_iff (c : CodePoint) (width n : Nat) (rest : Text) :
    unknownKeyMark <:+: (c :: Text.hexDigits width n) ++ rest ↔ unknownKeyMark <:+: rest := by
  have hstart : CodePoint.ofChar 'u' ∉ Text.hexDigits width n :=
    Text.not_mem_hexDigits (fun _ => Nat.digitChar_ne 'u' rfl) width n
  have hnext : CodePoint.ofChar 'n' ∉ Text.hexDigits width n :=
    Text.not_mem_hexDigits (fun _ => Nat.digitChar_ne 'n' rfl) width n
  rw [List.cons_append, List.infix_cons_iff, mark_append_iff_of_head hstart]
  refine or_iff_right ?_
  intro hstarts
  rcases List.exists_cons_of_ne_nil (Text.hexDigits_ne_nil width n) with ⟨d, digits, hdigits⟩
  rw [hdigits] at hstarts hnext
  have hmark : unknownKeyMark = CodePoint.ofChar 'u' :: CodePoint.ofChar 'n' :: "known key" := by
    decide
  rw [hmark, List.cons_append, List.cons_prefix_cons, List.cons_prefix_cons] at hstarts
  exact hnext (hstarts.2.1 ▸ List.mem_cons_self)

/-- A code point of a quoted text is written as it is, or it is none of the mark, and nothing
of its escape is the start of the mark. -/
theorem escapeIn_cases {quote : CodePoint} (hquote : quote = '\'' ∨ quote = '"') (c : CodePoint) :
    Text.escapeIn quote c = [c] ∨
      c ∉ unknownKeyMark ∧ ∃ w, Text.escapeIn quote c = CodePoint.ofChar '\\' :: w ∧
        ∀ rest, unknownKeyMark <:+: w ++ rest ↔ unknownKeyMark <:+: rest := by
  have hletter : ∀ d, d ≠ CodePoint.ofChar 'u' → ∀ rest,
      (unknownKeyMark <:+: [d] ++ rest ↔ unknownKeyMark <:+: rest) := by
    intro d hd rest
    exact mark_append_iff_of_head (by simpa using Ne.symm hd)
  rw [Text.escapeIn]
  split
  · rename_i hc
    have hc : c = '\'' ∨ c = '"' ∨ c = '\\' := by
      simp only [Bool.or_eq_true, decide_eq_true_eq] at hc
      rcases hc with rfl | hc
      · exact hquote.imp_right Or.inl
      · exact Or.inr (Or.inr hc)
    refine Or.inr ⟨?_, [c], rfl, hletter c ?_⟩
    · rcases hc with rfl | rfl | rfl <;> decide
    · rcases hc with rfl | rfl | rfl <;> decide
  split
  · rename_i hc
    exact Or.inr ⟨hc ▸ by decide, _, rfl, hletter 'n' (by decide)⟩
  split
  · rename_i hc
    exact Or.inr ⟨hc ▸ by decide, _, rfl, hletter 'r' (by decide)⟩
  split
  · rename_i hc
    exact Or.inr ⟨hc ▸ by decide, _, rfl, hletter 't' (by decide)⟩
  split
  · exact Or.inl rfl
  rename_i hprintable
  have hc := not_mem_mark_of_not_printable (by simpa using hprintable)
  split
  · exact Or.inr ⟨hc, _, rfl, mark_escape_iff 'x' 2 c.val⟩
  split
  · exact Or.inr ⟨hc, _, rfl, mark_escape_iff 'u' 4 c.val⟩
  · exact Or.inr ⟨hc, _, rfl, mark_escape_iff 'U' 8 c.val⟩

theorem prefix_flatMap_escapeIn_iff {quote : CodePoint} (hquote : quote = '\'' ∨ quote = '"')
    {part : Text} (hpart : part ⊆ unknownKeyMark) (t : Text) :
    part <+: t.flatMap (Text.escapeIn quote) ↔ part <+: t := by
  induction t generalizing part with
  | nil => rfl
  | cons c t ih =>
      cases part with
      | nil => simp
      | cons d part =>
          rw [List.flatMap_cons]
          rcases escapeIn_cases hquote c with hplain | ⟨hc, w, hescape, -⟩
          · rw [hplain, List.singleton_append, List.cons_prefix_cons, List.cons_prefix_cons,
              ih fun e he => hpart (List.mem_cons_of_mem d he)]
          · -- neither the backslash nor the code point itself is in the mark
            have hd : d ∈ unknownKeyMark := hpart List.mem_cons_self
            have hslash : d ≠ CodePoint.ofChar '\\' := by
              rintro rfl
              exact absurd hd (by decide)
            have hne : d ≠ c := by
              rintro rfl
              exact hc hd
            rw [hescape, List.cons_append, List.cons_prefix_cons, List.cons_prefix_cons]
            simp [hslash, hne]

theorem mark_flatMap_escapeIn_iff {quote : CodePoint} (hquote : quote = '\'' ∨ quote = '"')
    (t : Text) : unknownKeyMark <:+: t.flatMap (Text.escapeIn quote) ↔ unknownKeyMark <:+: t := by
  induction t with
  | nil => rfl
  | cons c t ih =>
      have hstarts := prefix_flatMap_escapeIn_iff hquote (List.Subset.refl unknownKeyMark) (c :: t)
      rw [List.flatMap_cons] at hstarts ⊢
      rw [List.infix_cons_iff, ← ih]
      rcases escapeIn_cases hquote c with hplain | ⟨hc, w, hescape, hrest⟩
      · rw [hplain, List.singleton_append] at hstarts ⊢
        rw [List.infix_cons_iff, hstarts]
      · have hnone : ¬ unknownKeyMark <+: c :: t := by
          intro h
          rcases List.cons_prefix_cons.mp h with ⟨rfl, -⟩
          exact hc (by decide)
        rw [hescape, List.cons_append, ← List.nil_append (_ :: _), mark_separator_iff (by decide),
          hrest]
        simp [hnone, not_mark_of_space List.not_mem_nil]

/-- A text between quotation marks has the mark if it has it without them. -/
theorem mark_quoted_iff (t : Text) : unknownKeyMark <:+: t.quoted ↔ unknownKeyMark <:+: t := by
  have hquote : Text.quoteFor t = '\'' ∨ Text.quoteFor t = '"' := by
    rw [Text.quoteFor]
    split
    · exact Or.inr rfl
    · exact Or.inl rfl
  have hends : CodePoint.ofChar 'u' ∉ [Text.quoteFor t] ∧
      CodePoint.ofChar 'y' ∉ [Text.quoteFor t] := by
    rcases hquote with h | h <;> rw [h] <;> decide
  rw [Text.quoted, ← List.singleton_append, List.append_assoc, mark_append_iff_of_head hends.1,
    mark_append_iff_of_getLast hends.2, mark_flatMap_escapeIn_iff hquote]

theorem mark_listText_iff (items : List Text) :
    unknownKeyMark <:+: Problem.listText items ↔ ∃ t ∈ items, unknownKeyMark <:+: t := by
  rw [Problem.listText, mark_append_iff_of_getLast (by decide), mark_append_iff_of_head (by decide),
    mark_join_iff]
  simp [mark_quoted_iff]

/-- Behind a text that cannot start the mark, there is no mark in a single word. -/
theorem not_mark_word (ha : CodePoint.ofChar 'u' ∉ a) (ht : CodePoint.ofChar ' ' ∉ t) :
    ¬ unknownKeyMark <:+: a ++ t := by
  rw [mark_append_iff_of_head ha]
  exact not_mark_of_space ht

/-- What a message says between two quoted texts: up to its comma it cannot end the mark, and
behind the comma it cannot start it. -/
def IsSeam (seam : Text) : Prop :=
  ∃ c d, seam = c ++ CodePoint.ofChar ',' :: d ∧
    CodePoint.ofChar 'y' ∉ c ∧ CodePoint.ofChar 'u' ∉ d

theorem isSeam_got : IsSeam ", got " := ⟨[], " got ", by decide⟩

theorem isSeam_got_quote : IsSeam ", got '" := ⟨[], " got '", by decide⟩

theorem isSeam_got_colon : IsSeam ", got :" := ⟨[], " got :", by decide⟩

theorem isSeam_items_got : IsSeam " items, got " := ⟨" items", " got ", by decide⟩

theorem mark_seam_iff {seam u : Text} (ha : CodePoint.ofChar 'u' ∉ a) (hseam : IsSeam seam) :
    unknownKeyMark <:+: a ++ t ++ seam ++ u ↔ unknownKeyMark <:+: t ∨ unknownKeyMark <:+: u := by
  rcases hseam with ⟨c, d, rfl, hc, hd⟩
  have hsplit : a ++ t ++ (c ++ CodePoint.ofChar ',' :: d) ++ u =
      a ++ ((t ++ c) ++ CodePoint.ofChar ',' :: (d ++ u)) := by
    simp
  rw [hsplit, mark_append_iff_of_head ha, mark_separator_iff (by decide),
    mark_append_iff_of_getLast hc, mark_append_iff_of_head hd]

/-- There is no mark in two single words with a seam between them. -/
theorem not_mark_words {seam u : Text} (ha : CodePoint.ofChar 'u' ∉ a) (hseam : IsSeam seam)
    (ht : CodePoint.ofChar ' ' ∉ t) (hu : CodePoint.ofChar ' ' ∉ u) :
    ¬ unknownKeyMark <:+: a ++ t ++ seam ++ u := by
  rw [mark_seam_iff ha hseam, not_or]
  exact ⟨not_mark_of_space ht, not_mark_of_space hu⟩

/-- There is no mark in a single word behind a quotation mark. -/
theorem not_mark_name (ha : ¬ unknownKeyMark <:+: a) (hb : b = a ++ [CodePoint.ofChar '\''])
    (ht : CodePoint.ofChar ' ' ∉ t) : ¬ unknownKeyMark <:+: b ++ t := by
  rw [hb, List.append_assoc, List.singleton_append, mark_separator_iff (by decide), not_or]
  exact ⟨ha, not_mark_of_space ht⟩

end Lint

namespace Problem

open Lint

/-- The part is in a text that the problem quotes and that may say anything: a type that is
none, the reason why a pattern is none, a pattern, the members of an enumeration, a key. -/
def Quotes (part : Text) : Problem → Prop
  | .unknownType type => ∃ t, type.plain = .ok t ∧ part <:+: t
  | .invalidPattern reason => part <:+: reason
  | .noMatch pattern => part <:+: pattern
  | .notAmong choices _ => ∃ items, choices.shown = .ok items ∧ ∃ t ∈ items, part <:+: t
  | .keyMissing key => ∃ t, key.plain = .ok t ∧ part <:+: t
  | _ => False

theorem IsTypeName.space_not_mem {word : Text} (h : IsTypeName word) :
    CodePoint.ofChar ' ' ∉ word := by
  rcases h with ⟨d, rfl⟩ | ⟨t, rfl⟩
  · exact d.space_not_mem_typeName
  · exact t.space_not_mem_name

/-- The message of a problem that is no unknown key has the mark exactly if what the problem
quotes has it. -/
theorem mark_message_iff {root : Datum}
    (hnames : ∀ a name, root.Holds a → a.name? = some name → CodePoint.ofChar ' ' ∉ name)
    {p : Problem} (habout : p.IsAbout root) (hp : p.isUnknownKey = false) {message : Text}
    (hmessage : p.message = .ok message) :
    unknownKeyMark <:+: message ↔ p.Quotes unknownKeyMark := by
  cases p with
  | notNamespace | definitionName | notDefinition | notSchema | keyNotKeyword =>
      cases hmessage
      exact iff_of_false (not_mark_word (by decide) (IsTypeName.space_not_mem habout)) id
  | noNamespaceName | importsNotSymbols | tagsNotSymbols | typeMissing | keysNotMap
  | requireNotKeywords =>
      cases hmessage
      exact iff_of_false (by decide +kernel) id
  | unresolvedImport name =>
      cases hmessage
      refine iff_of_false ?_ id
      exact not_mark_name (a := "Could not resolve import ") (by decide +kernel) (by decide +kernel)
        (hnames _ _ habout rfl)
  | unresolvedTag name =>
      cases hmessage
      refine iff_of_false ?_ id
      exact not_mark_name (a := "Could not resolve symbol ") (by decide +kernel) (by decide +kernel)
        (hnames _ _ habout rfl)
  | unknownKey key => cases hp
  | wrongType expected actual =>
      cases hmessage
      refine iff_of_false ?_ id
      exact not_mark_words (by decide) isSeam_got_quote (IsTypeName.space_not_mem habout.1)
        (IsTypeName.space_not_mem habout.2)
  | tooSmall bound value | tooLarge bound value =>
      rcases exists_of_bind_eq_ok hmessage with ⟨t, ht, hmessage⟩
      rcases exists_of_bind_eq_ok hmessage with ⟨u, hu, hmessage⟩
      cases hmessage
      refine iff_of_false ?_ id
      exact not_mark_words (by decide) isSeam_got (Atom.space_not_mem_plain habout.1 ht)
        (Atom.space_not_mem_plain habout.2 hu)
  | tooShort bound length | tooLong bound length =>
      rcases exists_of_bind_eq_ok hmessage with ⟨t, ht, hmessage⟩
      cases hmessage
      refine iff_of_false ?_ id
      exact not_mark_words (by decide) isSeam_got (Atom.space_not_mem_plain habout ht)
        (Text.space_not_mem_ofNat length)
  | tooFewItems bound count | tooManyItems bound count =>
      rcases exists_of_bind_eq_ok hmessage with ⟨t, ht, hmessage⟩
      cases hmessage
      refine iff_of_false ?_ id
      exact not_mark_words (by decide) isSeam_items_got (Atom.space_not_mem_plain habout ht)
        (Text.space_not_mem_ofNat count)
  | unknownType type =>
      rcases exists_of_bind_eq_ok hmessage with ⟨t, ht, hmessage⟩
      cases hmessage
      rw [mark_append_iff_of_head (by decide), Quotes, ht]
      simp
  | invalidPattern reason =>
      cases hmessage
      exact mark_append_iff_of_head (by decide)
  | noMatch pattern =>
      cases hmessage
      rw [mark_append_iff_of_head (by decide), mark_quoted_iff]
      rfl
  | notAmong choices name =>
      rcases exists_of_bind_eq_ok hmessage with ⟨items, hitems, hmessage⟩
      cases hmessage
      have hname := not_mark_of_space (hnames _ _ habout rfl)
      rw [mark_seam_iff (by decide) isSeam_got_colon, mark_listText_iff, Quotes, hitems]
      simp [hname]
  | keyMissing key =>
      rcases exists_of_bind_eq_ok hmessage with ⟨t, ht, hmessage⟩
      cases hmessage
      rw [mark_append_iff_of_getLast (by decide), Quotes, ht]
      simp

end Problem

end EdnLint
