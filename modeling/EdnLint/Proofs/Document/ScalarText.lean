import EdnLint.Proofs.Document.Numerals
import EdnLint.Proofs.Text.Digits

/-!
# The text of a scalar

`Scalar.Writes a s` says that `s` is how the scalar `a` is written: numbers in decimal
digits, a ratio with its two parts, a string between quotes with its quotes and
backslashes escaped, a keyword behind a colon and a symbol as it is. Names are limited to
those that no other kind of token looks like. A written scalar other than a string is one
token, and the cascade of readers that a token goes through ends at the scalar
(`Scalar.ReadsAs`). So it is a form, whatever text follows that lets a token end
(`Scalar.Writes.derives`).
-/

namespace EdnLint

instance Grammar.decidableIsToken (t : Text) : Decidable (IsToken t) :=
  inferInstanceAs (Decidable (∀ c ∈ t, c.isTerminator = false))

namespace Text

/-- A string with its quotes and backslashes escaped. -/
def escaped : Text → Text
  | [] => []
  | c :: t => if c = '"' ∨ c = '\\' then '\\' :: c :: escaped t else c :: escaped t

end Text

namespace Scalar

open Numeral (ofDigits takeSign signed)

theorem isDigits_ofNat (n : Nat) : IsDigits (Text.ofNat n) :=
  fun _ => Text.isDecimal_of_mem_ofNat

/-- The digits of a number are worth the number. -/
theorem ofDigits_ofNat (n : Nat) : ofDigits 10 (digitValues (Text.ofNat n)) = n := by
  rw [digitValues, Text.filterMap_digitValue?_ofNat, ofDigits, List.foldl_map]
  exact Nat.ofDigitChars_ten_toDigits

theorem exists_sign_ofInt (n : Int) :
    ∃ negative sign, Sign negative sign ∧ Text.ofInt n = sign ++ Text.ofNat n.natAbs ∧
      signed negative n.natAbs = n := by
  cases n with
  | ofNat n => exact ⟨false, [], .none, rfl, rfl⟩
  | negSucc n => exact ⟨true, ['-'], .minus, rfl, rfl⟩

theorem convert_of_length_le {digits : List Nat} (h : digits.length ≤ Number.maxDigits) :
    convert digits = .ok (ofDigits 10 digits) :=
  if_neg (Nat.not_lt.mpr h)

section

variable {negative : Bool} {sign digits token : Text}

theorem integer?_digits (hsign : Sign negative sign) (hdigits : IsDigits digits)
    (hne : digits ≠ []) (hlength : digits.length ≤ Number.maxDigits) :
    integer? (sign ++ digits) =
      some (.ok (.int (signed negative (ofDigits 10 (digitValues digits))))) := by
  have hsigned := takeSign_append hsign hdigits hne []
  have hhex : hexNumeral? (digits ++ []) = none := hexNumeral?_digits hdigits hne (by simp)
  have htake : takeDigits (digits ++ []) = (digitValues digits, []) :=
    takeDigits_append hdigits (by simp)
  have hdrop : dropMark 'N' digits = digits :=
    if_neg (getLast?_digits_ne hdigits hne (d := 'N') rfl [])
  rw [List.append_nil] at hsigned hhex htake
  obtain ⟨d, ds, hvalues, hds⟩ := exists_digitValues hdigits hne
  rw [hvalues] at htake
  have hconvert := convert_of_length_le (hds ▸ hlength)
  simp [integer?, hsigned, hdrop, hhex, htake, hconvert, hvalues, Except.map]

theorem ratio?_digits {num den : Text} (hsign : Sign negative sign) (hnum : IsDigits num)
    (hnum_ne : num ≠ []) (hden : IsDigits den) (hden_ne : den ≠ [])
    (hnum_length : num.length ≤ Number.maxDigits) (hden_length : den.length ≤ Number.maxDigits)
    (hpositive : ofDigits 10 (digitValues den) ≠ 0) :
    ratio? (sign ++ (num ++ CodePoint.ofChar '/' :: den)) =
      some (.ok (.ratio (mkRat (signed negative (ofDigits 10 (digitValues num)))
        (ofDigits 10 (digitValues den))))) := by
  obtain ⟨d, ds, hvalues, hds⟩ := exists_digitValues hnum hnum_ne
  obtain ⟨e, es, hvalues', hes⟩ := exists_digitValues hden hden_ne
  have hstroke : ∀ c ∈ (CodePoint.ofChar '/' :: den).head?, c.isDecimal = false := by
    rintro c ⟨⟩
    rfl
  have htake : takeDigits (den ++ []) = (digitValues den, []) := takeDigits_append hden (by simp)
  rw [List.append_nil] at htake
  rw [hvalues'] at htake hpositive ⊢
  have hconvert := convert_of_length_le (hds ▸ hnum_length)
  have hconvert' := convert_of_length_le (hes ▸ hden_length)
  simp only [ratio?, takeSign_append hsign hnum hnum_ne, takeDigits_append hnum hstroke, hvalues,
    if_true, htake, hconvert, hconvert']
  simp [hpositive, bind, Except.bind]

theorem ofToken_of_number? {result : Except Refusal Number} (h : number? token = some result) :
    ofToken token = result.map .number := by
  have hnil : token ≠ ("nil" : Text) := by
    rintro rfl
    cases h
  have htrue : token ≠ ("true" : Text) := by
    rintro rfl
    cases h
  have hfalse : token ≠ ("false" : Text) := by
    rintro rfl
    cases h
  simp [ofToken, hnil, htrue, hfalse, h]

theorem hexNumeral?_eq_none (h : ∀ c ∈ token.head?, c.isDecimal = false) :
    hexNumeral? token = none := by
  match token with
  | [] => rfl
  | [_] => rfl
  | z :: x :: t =>
      have hzero : z ≠ '0' := (ne_of_isDecimal (h z rfl) rfl).symm
      simp [hexNumeral?, hzero]

/-- A token is no number if no digit follows its sign. -/
theorem number?_eq_none (h : ∀ c ∈ (takeSign token).2.head?, c.isDecimal = false) :
    number? token = none := by
  generalize htake : takeSign token = taken at h
  obtain ⟨negative, t⟩ := taken
  have hempty : IsDigits [] := by simp [IsDigits]
  have hnone : ∀ t : Text, (∀ c ∈ t.head?, c.isDecimal = false) → takeDigits t = ([], t) :=
    fun _ ht => takeDigits_append hempty ht
  have hdrop : ∀ c ∈ (dropMark 'N' t).head?, c.isDecimal = false := by
    obtain ⟨mark, hmark, -⟩ := exists_dropMark t
    intro c hc
    refine h c ?_
    dsimp only
    rw [hmark, List.head?_append, Option.mem_def.mp hc]
    rfl
  have hinteger : integer? token = none := by
    simp [integer?, htake, hexNumeral?_eq_none hdrop, hnone _ hdrop]
  have hratio : ratio? token = none := by simp [ratio?, htake, hnone t h]
  have hdecimal : decimal? token = none := by simp [decimal?, htake, hnone t h]
  simp [number?, hinteger, hratio, hdecimal]

end

/-- The names of keywords. -/
structure IsKeywordName (name : Text) : Prop where
  token : Grammar.IsToken name
  ne_nil : name ≠ []
  last : name.getLast? ≠ some (CodePoint.ofChar '/')

/-- The names of symbols: no other token or form starts as they do. -/
structure IsSymbolName (name : Text) : Prop where
  token : Grammar.IsToken name
  ne_nil : name ≠ []
  not_literal : name ≠ "nil" ∧ name ≠ "true" ∧ name ≠ "false"
  head : ∀ c ∈ name.head?, c ≠ ':' ∧ c ≠ '#' ∧ c ≠ '^' ∧ c ≠ '\'' ∧ c ≠ '\\' ∧ c.isDigit = false
  signed : ∀ c d rest, name = c :: d :: rest → c = '+' ∨ c = '-' → d.isDigit = false

/-- How a scalar is written. -/
inductive Writes : Atom → Text → Prop
  | nil : Writes .nil "nil"
  | true : Writes (.bool true) "true"
  | false : Writes (.bool false) "false"
  | int {n : Int} : (Text.ofNat n.natAbs).length ≤ Number.maxDigits →
      Writes (.number (.int n)) (Text.ofInt n)
  | ratio {r : Rat} : 1 < r.den → (Text.ofNat r.num.natAbs).length ≤ Number.maxDigits →
      (Text.ofNat r.den).length ≤ Number.maxDigits →
      Writes (.number (.ratio r)) (Text.ofInt r.num ++ CodePoint.ofChar '/' :: Text.ofNat r.den)
  | string {t : Text} : Writes (.string t) ('"' :: (t.escaped ++ [CodePoint.ofChar '"']))
  | keyword {name : Text} : IsKeywordName name → Writes (.keyword name) (':' :: name)
  | symbol {name : Text} : IsSymbolName name → Writes (.symbol name) name

theorem isTerminator_of_isDecimal {c : CodePoint} (h : c.isDecimal = true) :
    c.isTerminator = false := by
  cases hc : c.isTerminator with
  | false => rfl
  | true =>
      simp only [CodePoint.isTerminator, CodePoint.isBlank, CodePoint.isCloser, Bool.or_eq_true,
        decide_eq_true_eq, or_assoc] at hc
      rcases hc with rfl | rfl | rfl | rfl | rfl | rfl | rfl | rfl | rfl | rfl | rfl | rfl | rfl |
        rfl <;> cases h

theorem isBare_numeral {negative : Bool} {sign digits rest : Text} (hsign : Sign negative sign)
    (hdigits : IsDigits digits) (hne : digits ≠ []) (hrest : Grammar.IsToken rest) :
    Grammar.IsBare (sign ++ (digits ++ rest)) := by
  have htoken : Grammar.IsToken (digits ++ rest) := by
    intro c hc
    rcases List.mem_append.mp hc with hc | hc
    · exact isTerminator_of_isDecimal (hdigits c hc)
    · exact hrest c hc
  cases hsign with
  | none =>
      obtain ⟨c, digits, rfl⟩ := List.exists_cons_of_ne_nil hne
      have hc : c.isDecimal = true := hdigits c List.mem_cons_self
      exact ⟨htoken, c, rfl, ne_of_isDecimal rfl hc, ne_of_isDecimal rfl hc, ne_of_isDecimal rfl hc,
        ne_of_isDecimal rfl hc⟩
  | plus => exact ⟨Grammar.isToken_cons.mpr ⟨rfl, htoken⟩, '+', rfl, by decide⟩
  | minus => exact ⟨Grammar.isToken_cons.mpr ⟨rfl, htoken⟩, '-', rfl, by decide⟩

/-- The text is one token, and it is read as the scalar. -/
def ReadsAs (token : Text) (a : Atom) : Prop :=
  Grammar.IsBare token ∧ ofToken token = .ok a

theorem readsAs_int {n : Int} (h : (Text.ofNat n.natAbs).length ≤ Number.maxDigits) :
    ReadsAs (Text.ofInt n) (.number (.int n)) := by
  obtain ⟨negative, sign, hsign, htext, hvalue⟩ := exists_sign_ofInt n
  have hdigits := isDigits_ofNat n.natAbs
  have hne := Text.ofNat_ne_nil n.natAbs
  have hempty : Grammar.IsToken [] := by simp [Grammar.IsToken]
  have hbare := isBare_numeral hsign hdigits hne hempty
  have hnumber : number? (Text.ofInt n) = some (.ok (.int n)) := by
    rw [number?, htext, integer?_digits hsign hdigits hne h, ofDigits_ofNat, hvalue]
    rfl
  rw [List.append_nil] at hbare
  refine ⟨htext ▸ hbare, ?_⟩
  rw [ofToken_of_number? hnumber]
  rfl

theorem readsAs_ratio {r : Rat} (hnum : (Text.ofNat r.num.natAbs).length ≤ Number.maxDigits)
    (hden : (Text.ofNat r.den).length ≤ Number.maxDigits) :
    ReadsAs (Text.ofInt r.num ++ CodePoint.ofChar '/' :: Text.ofNat r.den)
      (.number (.ratio r)) := by
  obtain ⟨negative, sign, hsign, htext, hvalue⟩ := exists_sign_ofInt r.num
  have hdigits := isDigits_ofNat r.num.natAbs
  have hne := Text.ofNat_ne_nil r.num.natAbs
  have hdigits' := isDigits_ofNat r.den
  have hne' := Text.ofNat_ne_nil r.den
  rw [htext, List.append_assoc]
  have hinteger : integer? (sign ++ (Text.ofNat r.num.natAbs ++
      CodePoint.ofChar '/' :: Text.ofNat r.den)) = none := by
    apply integer?_eq_none hsign hdigits hne
    · rintro c ⟨⟩
      decide
    · exact List.cons_ne_nil _ _
    · have hlast := getLast?_digits_ne hdigits' hne' (d := 'N') rfl
        (Text.ofNat r.num.natAbs ++ [CodePoint.ofChar '/'])
      simpa using hlast
  have hpositive : ofDigits 10 (digitValues (Text.ofNat r.den)) ≠ 0 := by
    rw [ofDigits_ofNat]
    exact r.den_nz
  have hratio := ratio?_digits hsign hdigits hne hdigits' hne' hnum hden hpositive
  rw [ofDigits_ofNat, ofDigits_ofNat, hvalue, Rat.mkRat_self] at hratio
  refine ⟨isBare_numeral hsign hdigits hne ?_, ?_⟩
  · refine Grammar.isToken_cons.mpr ⟨by decide, fun c hc => ?_⟩
    exact isTerminator_of_isDecimal (hdigits' c hc)
  · rw [ofToken_of_number? (by rw [number?, hinteger, hratio]; rfl)]
    rfl

theorem readsAs_keyword {name : Text} (h : IsKeywordName name) :
    ReadsAs (':' :: name) (.keyword name) := by
  obtain ⟨c, rest, hname⟩ := List.exists_cons_of_ne_nil h.ne_nil
  have hnumber : number? (':' :: name) = none := by
    apply number?_eq_none
    rintro d ⟨⟩
    decide
  have hlast : (CodePoint.ofChar ':' :: name).getLast? ≠ some (CodePoint.ofChar '/') := by
    rw [hname, List.getLast?_cons_cons, ← hname]
    exact h.last
  have hliteral : ∀ literal : Text, literal.head? ≠ some (CodePoint.ofChar ':') →
      CodePoint.ofChar ':' :: name ≠ literal := by
    rintro _ hhead rfl
    exact hhead rfl
  refine ⟨⟨Grammar.isToken_cons.mpr ⟨by decide, h.token⟩, ':', rfl, by decide⟩, ?_⟩
  simp [ofToken, hliteral "nil" (by decide), hliteral "true" (by decide),
    hliteral "false" (by decide), hnumber, hlast, h.ne_nil]

theorem readsAs_symbol {name : Text} (h : IsSymbolName name) : ReadsAs name (.symbol name) := by
  obtain ⟨c, rest, rfl⟩ := List.exists_cons_of_ne_nil h.ne_nil
  obtain ⟨hcolon, hhash, hcaret, hquote, hbackslash, hdigit⟩ := h.head c rfl
  have hdecimal : ∀ {d : CodePoint}, d.isDigit = false → d.isDecimal = false := by
    intro d hd
    rw [CodePoint.isDigit, Bool.or_eq_false_iff] at hd
    exact hd.1
  have hsigned : c = '+' ∨ c = '-' → ∀ d ∈ rest.head?, d.isDecimal = false := by
    intro hc d hd
    obtain ⟨rest, rfl⟩ := List.head?_eq_some_iff.mp hd
    exact hdecimal (h.signed c d rest rfl hc)
  have hnumber : number? (c :: rest) = none := by
    apply number?_eq_none
    by_cases hminus : c = '-'
    · subst hminus
      exact hsigned (Or.inr rfl)
    by_cases hplus : c = '+'
    · subst hplus
      exact hsigned (Or.inl rfl)
    · simpa [takeSign, hminus, hplus] using hdecimal hdigit
  have hstart : startsLikeNumber (c :: rest) = false := by
    cases rest with
    | nil => exact hdigit
    | cons d rest => simpa [startsLikeNumber, hdigit] using h.signed c d rest rfl
  refine ⟨⟨h.token, c, rfl, hbackslash, hhash, hcaret, hquote⟩, ?_⟩
  simp [ofToken, h.not_literal, hnumber, hstart, hcolon]

theorem quoted_escaped (t : Text) : Grammar.Quoted false t.escaped t := by
  induction t with
  | nil => exact .nil
  | cons c t ih =>
      rw [Text.escaped]
      split
      · rename_i hc
        refine .escape ?_ ih
        rcases hc with rfl | rfl <;> rfl
      · rename_i hc
        rw [not_or] at hc
        exact .plain hc.1 hc.2 ih

/-- A written scalar is a form, which means the scalar. -/
theorem Writes.derives {a : Atom} {s : Text} (h : Writes a s) (p : Position) {rest : Text}
    (hrest : Grammar.EndsToken rest) :
    Grammar.Derives .form p s rest [Grammar.spanning (.scalar a) p s []] := by
  have htoken {a : Atom} {s : Text} (h : ReadsAs s a) :
      Grammar.Derives .form p s rest [Grammar.spanning (.scalar a) p s []] :=
    .atom h.1 hrest h.2
  cases h with
  | nil => exact htoken ⟨⟨by decide, 'n', rfl, by decide⟩, rfl⟩
  | true => exact htoken ⟨⟨by decide, 't', rfl, by decide⟩, rfl⟩
  | false => exact htoken ⟨⟨by decide, 'f', rfl, by decide⟩, rfl⟩
  | int hlength => exact htoken (readsAs_int hlength)
  | ratio _ hnum hden => exact htoken (readsAs_ratio hnum hden)
  | @string t => exact .string (quoted_escaped t)
  | keyword hname => exact htoken (readsAs_keyword hname)
  | symbol hname => exact htoken (readsAs_symbol hname)

end Scalar

end EdnLint
