import EdnLint.Document.Reader

/-!
# The grammar of documents

`Derives k p s rest ns` says that the text `s`, which stands at the position `p` and
is followed by `rest`, is of the category `k`, and that the nodes it means are
`ns`. A sequence means any number of nodes, a form and a required form mean one,
and blanks and discards mean none. Every node spans exactly the text it is derived
from.

What follows a text matters at two places only: a token reaches up to a terminator
or the end, and a comment up to the end of its line. So `rest` may be cut anywhere
(`Derives.cut`).
-/

namespace EdnLint

namespace Grammar

/-- A token holds no terminator. -/
def IsToken (t : Text) : Prop := ∀ c ∈ t, c.isTerminator = false

/-- The tokens behind a `#` that are tags. -/
def IsTag (t : Text) : Prop := IsToken t ∧ ∃ c ∈ t.head?, c ≠ '_' ∧ c ≠ '#'

/-- The tokens that stand by themselves. -/
def IsBare (t : Text) : Prop :=
  IsToken t ∧ ∃ c ∈ t.head?, c ≠ '\\' ∧ c ≠ '#' ∧ c ≠ '^' ∧ c ≠ '\''

/-- A token may end in front of `rest`. -/
def EndsToken (rest : Text) : Prop := ∀ c ∈ rest.head?, c.isTerminator = true

/-- A comment may end in front of `rest`. -/
def EndsLine (rest : Text) : Prop := ∀ c ∈ rest.head?, c = '\n'

/-- What stands between the quotes of a string or, with `true`, of a pattern, and
the text it means. A pattern keeps its escapes as they are. -/
inductive Quoted : Bool → Text → Text → Prop
  | nil {pattern : Bool} : Quoted pattern [] []
  | plain {pattern : Bool} {c : CodePoint} {s v : Text} : c ≠ '"' → c ≠ '\\' →
      Quoted pattern s v → Quoted pattern (c :: s) (c :: v)
  | kept {c : CodePoint} {s v : Text} :
      Quoted true s v → Quoted true ('\\' :: c :: s) ('\\' :: c :: v)
  | escape {c d : CodePoint} {s v : Text} : Scalar.escape? c = some d →
      Quoted false s v → Quoted false ('\\' :: c :: s) (d :: v)
  | digits {digits : Text} {d : CodePoint} {s v : Text} : Scalar.fourHex? digits = some d →
      Quoted false s v → Quoted false ('\\' :: 'u' :: (digits ++ s)) (d :: v)

/-- What opens a string or a pattern. -/
def openingQuote : Bool → Text
  | false => ['"']
  | true => ['#', '"']

/-- What opens and closes a collection. -/
inductive Brackets : Text → Shape → CodePoint → Prop
  | list : Brackets ['('] .list ')'
  | vector : Brackets ['['] .vector ']'
  | map : Brackets ['{'] .map '}'
  | set : Brackets ['#', '{'] .set '}'

inductive Category where
  | blank
  | discard
  | form
  /-- A form with blanks and discards in front of it. -/
  | required
  /-- Any number of blanks, discards and forms. -/
  | sequence
  deriving DecidableEq, Repr

/-- What may stand in front of a required form. -/
def Category.isSkipped : Category → Bool
  | .blank | .discard => true
  | _ => false

/-- What a sequence is made of. -/
def Category.isPiece : Category → Bool
  | .blank | .discard | .form => true
  | _ => false

theorem Category.isSkipped_of_isPiece {k : Category} (h : k.isPiece = true) (hk : k ≠ .form) :
    k.isSkipped = true := by
  cases k <;> simp_all [isPiece, isSkipped]

/-- The node that spans the text `s` at `p`. -/
def spanning (shape : Shape) (p : Position) (s : Text) (forms : List Node) : Node :=
  .mk shape p (p.after s) forms

inductive Derives : Category → Position → Text → Text → List Node → Prop
  | white {p : Position} {c : CodePoint} {rest : Text} :
      c.isBlank = true → Derives .blank p [c] rest []
  | comment {p : Position} {s rest : Text} :
      (∀ c ∈ s, c ≠ '\n') → EndsLine rest → Derives .blank p (';' :: s) rest []
  | discard {p : Position} {s rest : Text} {n : Node} :
      Derives .required (p.after ['#', '_']) s rest [n] →
      Derives .discard p ('#' :: '_' :: s) rest []
  | collection {p : Position} {opening s rest : Text} {shape : Shape} {closer : CodePoint}
      {forms : List Node} :
      Brackets opening shape closer →
      Derives .sequence (p.after opening) s (closer :: rest) forms →
      Derives .form p (opening ++ s ++ [closer]) rest
        [spanning shape p (opening ++ s ++ [closer]) forms]
  | string {pattern : Bool} {p : Position} {s v rest : Text} :
      Quoted pattern s v →
      Derives .form p (openingQuote pattern ++ s ++ [CodePoint.ofChar '"']) rest
        [spanning (.scalar (.string v)) p (openingQuote pattern ++ s ++ [CodePoint.ofChar '"']) []]
  | character {p : Position} {c : CodePoint} {token v rest : Text} :
      IsToken token → EndsToken rest → Scalar.character? (c :: token) = some v →
      Derives .form p ('\\' :: c :: token) rest
        [spanning (.scalar (.string v)) p ('\\' :: c :: token) []]
  | symbolic {p : Position} {token rest : Text} {a : Atom} :
      IsToken token → EndsToken rest → Scalar.ofSymbolic? token = some a →
      Derives .form p ('#' :: '#' :: token) rest
        [spanning (.scalar a) p ('#' :: '#' :: token) []]
  | tagged {p : Position} {tag s rest : Text} {n : Node} :
      IsTag tag → EndsToken (s ++ rest) →
      Derives .required (p.after ('#' :: tag)) s rest [n] →
      Derives .form p ('#' :: (tag ++ s)) rest [spanning (.tagged tag) p ('#' :: (tag ++ s)) [n]]
  | metadata {p : Position} {s u rest : Text} {m n : Node} :
      Derives .required (p.after ['^']) s (u ++ rest) [m] →
      Derives .required (p.after ('^' :: s)) u rest [n] →
      Derives .form p ('^' :: (s ++ u)) rest [spanning .metadata p ('^' :: (s ++ u)) [m, n]]
  | quote {p : Position} {s rest : Text} {n : Node} :
      Derives .required (p.after ['\'']) s rest [n] →
      Derives .form p ('\'' :: s) rest [spanning .quote p ('\'' :: s) [n]]
  | atom {p : Position} {token rest : Text} {a : Atom} :
      IsBare token → EndsToken rest → Scalar.ofToken token = .ok a →
      Derives .form p token rest [spanning (.scalar a) p token []]
  | required {p : Position} {s rest : Text} {n : Node} :
      Derives .form p s rest [n] → Derives .required p s rest [n]
  | skip {k : Category} {p : Position} {s u rest : Text} {n : Node} :
      k.isSkipped = true → Derives k p s (u ++ rest) [] →
      Derives .required (p.after s) u rest [n] →
      Derives .required p (s ++ u) rest [n]
  | nil {p : Position} {rest : Text} : Derives .sequence p [] rest []
  | cons {k : Category} {p : Position} {s u rest : Text} {ms ns : List Node} :
      k.isPiece = true → Derives k p s (u ++ rest) ms →
      Derives .sequence (p.after s) u rest ns →
      Derives .sequence p (s ++ u) rest (ms ++ ns)

theorem isToken_cons {c : CodePoint} {t : Text} :
    IsToken (c :: t) ↔ c.isTerminator = false ∧ IsToken t :=
  List.forall_mem_cons

theorem IsBare.ne_nil {t : Text} (h : IsBare t) : t ≠ [] := by
  obtain ⟨-, c, hc, -⟩ := h
  rintro rfl
  cases hc

theorem EndsToken.cut {rest rest' : Text} (h : EndsToken rest) (hr : rest' <+: rest) :
    EndsToken rest' := by
  obtain ⟨u, rfl⟩ := hr
  cases rest' with
  | nil => simp [EndsToken]
  | cons c rest' => exact h

theorem EndsLine.cut {rest rest' : Text} (h : EndsLine rest) (hr : rest' <+: rest) :
    EndsLine rest' := by
  obtain ⟨u, rfl⟩ := hr
  cases rest' with
  | nil => simp [EndsLine]
  | cons c rest' => exact h

namespace Derives

variable {k : Category} {p : Position} {s rest : Text} {ns : List Node}

/-- A derivation does not depend on how far the text behind it goes. -/
theorem cut (h : Derives k p s rest ns) {rest' : Text} (hr : rest' <+: rest) :
    Derives k p s rest' ns := by
  induction h generalizing rest' with
  | white hc => exact .white hc
  | comment hs hends => exact .comment hs (hends.cut hr)
  | discard _ ih => exact .discard (ih hr)
  | collection hb _ ih => exact .collection hb (ih ((List.prefix_cons_inj _).mpr hr))
  | string hq => exact .string hq
  | character ht hends hv => exact .character ht (hends.cut hr) hv
  | symbolic ht hends hv => exact .symbolic ht (hends.cut hr) hv
  | tagged ht hends _ ih =>
      exact .tagged ht (hends.cut ((List.prefix_append_right_inj _).mpr hr)) (ih hr)
  | metadata _ _ ihm ihn =>
      exact .metadata (ihm ((List.prefix_append_right_inj _).mpr hr)) (ihn hr)
  | quote _ ih => exact .quote (ih hr)
  | atom ht hends ha => exact .atom ht (hends.cut hr) ha
  | required _ ih => exact .required (ih hr)
  | skip hk _ _ ihs ihn => exact .skip hk (ihs ((List.prefix_append_right_inj _).mpr hr)) (ihn hr)
  | nil => exact .nil
  | cons hk _ _ ihs ihn => exact .cons hk (ihs ((List.prefix_append_right_inj _).mpr hr)) (ihn hr)

theorem exists_node (h : Derives k p s rest ns) (hk : k = .form ∨ k = .required) :
    ∃ n, ns = [n] := by
  cases h <;> simp_all

theorem eq_nil_of_isSkipped (h : Derives k p s rest ns) (hk : k.isSkipped = true) : ns = [] := by
  cases h <;> simp_all [Category.isSkipped]

/-- Everything but a sequence takes some text. -/
theorem text_ne_nil (h : Derives k p s rest ns) (hk : k ≠ .sequence) : s ≠ [] := by
  induction h with
  | string => simp
  | atom hbare => exact hbare.ne_nil
  | required _ ih => exact ih (by simp)
  | skip _ _ _ _ ih => simp [ih]
  | _ => simp_all

theorem length_lt_of_isPiece (h : Derives k p s rest ns) (hk : k.isPiece = true) :
    rest.length < (s ++ rest).length := by
  have hs : s ≠ [] := h.text_ne_nil (by rintro rfl; cases hk)
  rw [List.length_append]
  exact Nat.lt_add_of_pos_left (List.length_pos_iff.mpr hs)

/-- A form starts where its text starts. -/
theorem start_eq (h : Derives k p s rest ns) (hk : k = .form) : ∀ n ∈ ns, n.start = p := by
  cases h <;> simp_all [spanning]

/-- A form, with or without something in front of it, stops where its text stops. -/
theorem stop_eq (h : Derives k p s rest ns) (hk : k = .form ∨ k = .required) :
    ∀ n ∈ ns, n.stop = p.after s := by
  induction h with
  | required _ ih => exact ih (Or.inl rfl)
  | skip _ _ _ _ ih =>
      rw [Position.after_append]
      exact ih (Or.inr rfl)
  | _ => simp_all [spanning]

end Derives

end Grammar

end EdnLint
