import EdnLint.Proofs.Document.Recognition
import Mathlib.Data.List.Basic

/-!
# Numbers that cannot be converted

A token that has the form of a number need not be one. `Scalar.Exceeds` lists those
that are not, with the fault that converting them is: an integer or a part of a
ratio with too many digits, and a decimal whose exponents are out of range. The
lists of the forms are the grammar of numerals: a sign, digits, and what may follow
them. `Scalar.ofToken_eq_fault_iff` says that no other token is a fault.
-/

namespace EdnLint

/-- The leading digit stands too far in front of the point, or the last one too far
behind it. -/
def Decimal.IsOutOfRange (d : Decimal) : Prop :=
  maxLead < d.leadExponent ∨ d.exponent < minExponent

theorem Decimal.make_eq_error_iff {negative : Bool} {coefficient : Nat} {exponent : Int}
    {fault : Fault} :
    make negative coefficient exponent = .error fault ↔
      fault = .decimalRange ∧ IsOutOfRange ⟨negative, coefficient, exponent⟩ := by
  unfold make IsOutOfRange
  dsimp only
  split
  · rename_i h
    constructor
    · rintro ⟨⟩
      exact ⟨rfl, by simpa using h⟩
    · rintro ⟨rfl, -⟩
      rfl
  · rename_i h
    constructor
    · rintro ⟨⟩
    · rintro ⟨-, hrange⟩
      exact absurd (by simpa using hrange) h

namespace Scalar

open Numeral (ofDigits takeSign signed)

/-- What may stand in front of digits, and whether it makes the number negative. -/
inductive Sign : Bool → Text → Prop
  | none : Sign false []
  | plus : Sign false ['+']
  | minus : Sign true ['-']

def IsDigits (t : Text) : Prop := ∀ c ∈ t, c.isDecimal = true

def digitValues (t : Text) : List Nat := t.filterMap CodePoint.digitValue?

/-- A point and digits behind it, or nothing. -/
inductive Fraction : Text → List Nat → Prop
  | none : Fraction [] []
  | point {digits : Text} : IsDigits digits → Fraction ('.' :: digits) (digitValues digits)

/-- An exponent, or nothing. -/
inductive Exponent : Text → Int → Prop
  | none : Exponent [] 0
  | marked {mark : CodePoint} {negative : Bool} {sign digits : Text} :
      mark = 'e' ∨ mark = 'E' → Sign negative sign → IsDigits digits → digits ≠ [] →
      Exponent (mark :: (sign ++ digits)) (signed negative (ofDigits 10 (digitValues digits)))

/-- A token with the form of a number that is too large to be converted. -/
inductive Exceeds : Text → Fault → Prop
  | integer {negative : Bool} {sign digits mark : Text} :
      Sign negative sign → IsDigits digits → mark = [] ∨ mark = [CodePoint.ofChar 'N'] →
      Number.maxDigits < digits.length →
      Exceeds (sign ++ (digits ++ mark)) .digitLimit
  | ratio {negative : Bool} {sign num den : Text} :
      Sign negative sign → IsDigits num → num ≠ [] → IsDigits den → den ≠ [] →
      Number.maxDigits < num.length ∨ Number.maxDigits < den.length →
      Exceeds (sign ++ (num ++ CodePoint.ofChar '/' :: den)) .digitLimit
  | decimal {negative : Bool} {sign whole fraction exponent : Text} {places : List Nat}
      {scale : Int} :
      Sign negative sign → IsDigits whole → whole ≠ [] → Fraction fraction places →
      Exponent exponent scale →
      Decimal.IsOutOfRange
        ⟨negative, ofDigits 10 (digitValues whole ++ places), scale - places.length⟩ →
      Exceeds (sign ++ (whole ++ (fraction ++ (exponent ++ [CodePoint.ofChar 'M'])))) .decimalRange

section

variable {t digits rest : Text} {c : CodePoint}

theorem ne_of_isDecimal {d : CodePoint} (hd : d.isDecimal = false) (hc : c.isDecimal = true) :
    c ≠ d := by
  rintro rfl
  rw [hc] at hd
  cases hd

/-- A run of digits that goes as far as it can. -/
theorem exists_digits (t : Text) :
    ∃ digits rest, t = digits ++ rest ∧ IsDigits digits ∧
      ∀ c ∈ rest.head?, c.isDecimal = false := by
  rcases Grammar.exists_span (fun c => !c.isDecimal) t with ⟨digits, rest, rfl, hdigits, hrest⟩
  exact ⟨digits, rest, rfl, by simpa [IsDigits] using hdigits, by simpa using hrest⟩

theorem takeDigits_append (hdigits : IsDigits digits)
    (hrest : ∀ c ∈ rest.head?, c.isDecimal = false) :
    takeDigits (digits ++ rest) = (digitValues digits, rest) := by
  induction digits with
  | nil =>
      cases rest with
      | nil => rfl
      | cons c rest =>
          have hc : c.digitValue? = none := by simpa [CodePoint.isDecimal] using hrest c rfl
          simp [takeDigits, hc, digitValues]
  | cons c digits ih =>
      rcases List.forall_mem_cons.mp hdigits with ⟨hc, hdigits⟩
      rcases Option.isSome_iff_exists.mp hc with ⟨d, hd⟩
      simp [takeDigits, hd, ih hdigits, digitValues]

theorem length_digitValues (h : IsDigits digits) : (digitValues digits).length = digits.length := by
  induction digits with
  | nil => rfl
  | cons c digits ih =>
      rcases List.forall_mem_cons.mp h with ⟨hc, hdigits⟩
      rcases Option.isSome_iff_exists.mp hc with ⟨d, hd⟩
      have ih := ih hdigits
      simp only [digitValues] at ih ⊢
      simp [hd, ih]

theorem exists_digitValues (h : IsDigits digits) (hne : digits ≠ []) :
    ∃ d ds, digitValues digits = d :: ds ∧ (d :: ds).length = digits.length := by
  have hlength := length_digitValues h
  cases hvalues : digitValues digits with
  | nil =>
      rw [hvalues, List.length_nil, eq_comm, List.length_eq_zero_iff] at hlength
      exact absurd hlength hne
  | cons d ds => exact ⟨d, ds, rfl, hvalues ▸ hlength⟩

theorem ne_nil_of_digitValues {d : Nat} {ds : List Nat} (h : digitValues digits = d :: ds) :
    digits ≠ [] := by
  rintro rfl
  cases h

theorem exists_sign (t : Text) :
    ∃ negative sign rest, t = sign ++ rest ∧ Sign negative sign ∧
      takeSign t = (negative, rest) := by
  cases t with
  | nil => exact ⟨false, [], [], rfl, .none, rfl⟩
  | cons c t =>
      by_cases hminus : c = '-'
      · subst hminus
        exact ⟨true, ['-'], t, rfl, .minus, rfl⟩
      by_cases hplus : c = '+'
      · subst hplus
        exact ⟨false, ['+'], t, rfl, .plus, rfl⟩
      · exact ⟨false, [], c :: t, rfl, .none, by simp [takeSign, hminus, hplus]⟩

theorem takeSign_append {negative : Bool} {sign : Text} (hsign : Sign negative sign)
    (hdigits : IsDigits digits) (hne : digits ≠ []) (rest : Text) :
    takeSign (sign ++ (digits ++ rest)) = (negative, digits ++ rest) := by
  cases hsign with
  | none =>
      cases digits with
      | nil => exact absurd rfl hne
      | cons c digits =>
          have hc := (List.forall_mem_cons.mp hdigits).1
          have hminus : c ≠ '-' := ne_of_isDecimal rfl hc
          have hplus : c ≠ '+' := ne_of_isDecimal rfl hc
          simp [takeSign, hminus, hplus]
  | plus => rfl
  | minus => rfl

theorem getLast?_digits_ne (hdigits : IsDigits digits) (hne : digits ≠ []) {d : CodePoint}
    (hd : d.isDecimal = false) (t : Text) : (t ++ digits).getLast? ≠ some d := by
  rw [List.getLast?_append_of_ne_nil _ hne]
  intro hlast
  have hmem := hdigits d (List.mem_of_getLast? hlast)
  rw [hd] at hmem
  cases hmem

/-- A token that starts with digits is no hexadecimal numeral, unless an `x` follows
the first one. -/
theorem hexNumeral?_digits (hdigits : IsDigits digits) (hne : digits ≠ [])
    (hrest : ∀ c ∈ rest.head?, c ≠ 'x' ∧ c ≠ 'X') : hexNumeral? (digits ++ rest) = none := by
  match digits, rest with
  | [], _ => exact absurd rfl hne
  | [_], [] => rfl
  | [z], c :: rest =>
      rcases hrest c rfl with ⟨hx, hX⟩
      simp [hexNumeral?, hx, hX]
  | z :: c :: digits, rest =>
      have hc := (List.forall_mem_cons.mp (List.forall_mem_cons.mp hdigits).2).1
      have hx : c ≠ 'x' := ne_of_isDecimal rfl hc
      have hX : c ≠ 'X' := ne_of_isDecimal rfl hc
      simp [hexNumeral?, hx, hX]

end

/-- Conversion fails on too many digits only. -/
theorem convert_eq_error_iff {digits : List Nat} {e : Refusal} :
    convert digits = .error e ↔ e = .fault .digitLimit ∧ Number.maxDigits < digits.length := by
  unfold convert
  split
  · rename_i h
    constructor
    · rintro ⟨⟩
      exact ⟨rfl, h⟩
    · rintro ⟨rfl, -⟩
      rfl
  · rename_i h
    constructor
    · rintro ⟨⟩
    · rintro ⟨-, h'⟩
      exact absurd h' h

section

variable {negative : Bool} {sign digits rest token : Text} {fault : Fault}

theorem exists_dropMark (t : Text) :
    ∃ mark, t = dropMark 'N' t ++ mark ∧ (mark = [] ∨ mark = [CodePoint.ofChar 'N']) := by
  unfold dropMark
  split
  · rename_i hlast
    exact ⟨[CodePoint.ofChar 'N'], (List.dropLast_append_getLast? _ hlast).symm, Or.inr rfl⟩
  · exact ⟨[], (List.append_nil t).symm, Or.inl rfl⟩

theorem integer?_fault (h : integer? token = some (.error (.fault fault))) :
    Exceeds token fault := by
  rcases exists_sign token with ⟨negative, sign, t, rfl, hsign, htake⟩
  rcases exists_dropMark t with ⟨mark, ht, hmark⟩
  unfold integer? at h
  rw [htake] at h
  dsimp only at h
  generalize dropMark 'N' t = numeral at h ht
  subst ht
  split at h
  · cases h
  · rcases exists_digits numeral with ⟨digits, rest, rfl, hdigits, hrest⟩
    rw [takeDigits_append hdigits hrest] at h
    split at h
    · rename_i d ds hpair
      rcases Prod.mk.inj hpair with ⟨hvalues, rfl⟩
      cases hconvert : convert (d :: ds) with
      | ok n => simp [hconvert, Except.map] at h
      | error e =>
          rcases convert_eq_error_iff.mp hconvert with ⟨rfl, hlength⟩
          rw [hconvert] at h
          cases h
          rw [← hvalues, length_digitValues hdigits] at hlength
          rw [List.append_nil]
          exact .integer hsign hdigits hmark hlength
    · cases h

theorem integer?_of_exceeds {mark : Text} (hsign : Sign negative sign) (hdigits : IsDigits digits)
    (hmark : mark = [] ∨ mark = [CodePoint.ofChar 'N'])
    (hlength : Number.maxDigits < digits.length) :
    integer? (sign ++ (digits ++ mark)) = some (.error (.fault .digitLimit)) := by
  have hne : digits ≠ [] := by
    rintro rfl
    cases hlength
  have hdrop : dropMark 'N' (digits ++ mark) = digits := by
    rcases hmark with rfl | rfl
    · have hlast := getLast?_digits_ne hdigits hne (d := 'N') rfl []
      rw [List.append_nil]
      exact if_neg hlast
    · simp [dropMark]
  rcases exists_digitValues hdigits hne with ⟨d, ds, hvalues, hds⟩
  have hhex : hexNumeral? (digits ++ []) = none := hexNumeral?_digits hdigits hne (by simp)
  have htake : takeDigits (digits ++ []) = (digitValues digits, []) :=
    takeDigits_append hdigits (by simp)
  rw [List.append_nil] at hhex htake
  have hconvert : convert (d :: ds) = .error (.fault .digitLimit) :=
    convert_eq_error_iff.mpr ⟨rfl, hds ▸ hlength⟩
  simp [integer?, takeSign_append hsign hdigits hne, hdrop, hhex, htake, hvalues, hconvert,
    Except.map]

/-- Digits with something behind them that neither makes them hexadecimal nor marks
them as an integer. -/
theorem integer?_eq_none (hsign : Sign negative sign) (hdigits : IsDigits digits)
    (hne : digits ≠ []) (hrest : ∀ c ∈ rest.head?, c.isDecimal = false ∧ c ≠ 'x' ∧ c ≠ 'X')
    (hrest_ne : rest ≠ []) (hlast : (digits ++ rest).getLast? ≠ some (CodePoint.ofChar 'N')) :
    integer? (sign ++ (digits ++ rest)) = none := by
  have hdrop : dropMark 'N' (digits ++ rest) = digits ++ rest := if_neg hlast
  have hhex := hexNumeral?_digits hdigits hne fun c hc => (hrest c hc).2
  have htake := takeDigits_append hdigits fun c hc => (hrest c hc).1
  simp [integer?, takeSign_append hsign hdigits hne, hdrop, hhex, htake, hrest_ne]

theorem ratio?_fault (h : ratio? token = some (.error (.fault fault))) : Exceeds token fault := by
  rcases exists_sign token with ⟨negative, sign, t, rfl, hsign, htake⟩
  unfold ratio? at h
  rw [htake] at h
  dsimp only at h
  rcases exists_digits t with ⟨num, rest, rfl, hnum, hrest⟩
  rw [takeDigits_append hnum hrest] at h
  split at h
  · rename_i d ds c u hpair
    rcases Prod.mk.inj hpair with ⟨hvalues, rfl⟩
    split at h
    · rename_i hstroke
      subst hstroke
      rcases exists_digits u with ⟨den, rest, rfl, hden, hrest⟩
      rw [takeDigits_append hden hrest] at h
      split at h
      · rename_i e es hpair
        rcases Prod.mk.inj hpair with ⟨hvalues', rfl⟩
        rw [List.append_nil]
        have hexceeds := Exceeds.ratio hsign hnum (ne_nil_of_digitValues hvalues) hden
          (ne_nil_of_digitValues hvalues')
        rw [← length_digitValues hnum, ← length_digitValues hden, hvalues, hvalues'] at hexceeds
        -- the numerator is converted first, so a fault of the denominator comes behind it
        cases hn : convert (d :: ds) with
        | error e =>
            rcases convert_eq_error_iff.mp hn with ⟨rfl, hlength⟩
            simp only [hn, Option.some.injEq] at h
            cases h
            exact hexceeds (Or.inl hlength)
        | ok n =>
            cases hd : convert (e :: es) with
            | error e =>
                rcases convert_eq_error_iff.mp hd with ⟨rfl, hlength⟩
                simp only [hn, hd, Option.some.injEq] at h
                cases h
                exact hexceeds (Or.inr hlength)
            | ok m =>
                simp only [hn, hd, Option.some.injEq, bind, Except.bind] at h
                split at h <;> cases h
      · cases h
    · cases h
  · cases h

theorem ratio?_of_exceeds {num den : Text} (hsign : Sign negative sign) (hnum : IsDigits num)
    (hnum_ne : num ≠ []) (hden : IsDigits den) (hden_ne : den ≠ [])
    (h : Number.maxDigits < num.length ∨ Number.maxDigits < den.length) :
    ratio? (sign ++ (num ++ CodePoint.ofChar '/' :: den)) = some (.error (.fault .digitLimit)) := by
  rcases exists_digitValues hnum hnum_ne with ⟨d, ds, hvalues, hds⟩
  rcases exists_digitValues hden hden_ne with ⟨e, es, hvalues', hes⟩
  have hstroke : ∀ c ∈ (CodePoint.ofChar '/' :: den).head?, c.isDecimal = false := by
    rintro c ⟨⟩
    rfl
  have htake : takeDigits (den ++ []) = (digitValues den, []) := takeDigits_append hden (by simp)
  rw [List.append_nil, hvalues'] at htake
  rw [← hds, ← hes] at h
  simp only [ratio?, takeSign_append hsign hnum hnum_ne, takeDigits_append hnum hstroke, hvalues,
    if_true, htake, Option.some.injEq]
  cases hn : convert (d :: ds) with
  | error e =>
      rcases convert_eq_error_iff.mp hn with ⟨rfl, -⟩
      rfl
  | ok n =>
      have hlong : Number.maxDigits < (e :: es).length := by
        refine h.resolve_left fun hlong => ?_
        rw [convert_eq_error_iff.mpr ⟨rfl, hlong⟩] at hn
        cases hn
      rw [convert_eq_error_iff.mpr ⟨rfl, hlong⟩]
      rfl

theorem ratio?_eq_none (hsign : Sign negative sign) (hdigits : IsDigits digits)
    (hne : digits ≠ [])
    (hrest : ∀ c ∈ rest.head?, c.isDecimal = false ∧ c ≠ '/') :
    ratio? (sign ++ (digits ++ rest)) = none := by
  have hdigits' := takeDigits_append hdigits fun c hc => (hrest c hc).1
  unfold ratio?
  rw [takeSign_append hsign hdigits hne]
  dsimp only
  rw [hdigits']
  cases rest with
  | nil => split <;> simp_all
  | cons c rest => split <;> simp_all

theorem exists_fraction (t : Text) :
    ∃ fraction places rest, t = fraction ++ rest ∧ Fraction fraction places ∧
      takeFraction t = (places, rest) := by
  cases t with
  | nil => exact ⟨[], [], [], rfl, .none, rfl⟩
  | cons c t =>
      by_cases hpoint : c = '.'
      · subst hpoint
        rcases exists_digits t with ⟨digits, rest, rfl, hdigits, hrest⟩
        exact ⟨'.' :: digits, _, rest, rfl, .point hdigits, takeDigits_append hdigits hrest⟩
      · exact ⟨[], [], c :: t, rfl, .none, by simp [takeFraction, hpoint]⟩

theorem exists_exponent (t : Text) :
    ∃ exponent scale rest, t = exponent ++ rest ∧ Exponent exponent scale ∧
      takeExponent t = (scale, rest) := by
  cases t with
  | nil => exact ⟨[], 0, [], rfl, .none, rfl⟩
  | cons c t =>
      by_cases hmark : c = 'e' ∨ c = 'E'
      · rcases exists_sign t with ⟨negative, sign, u, rfl, hsign, htake⟩
        rcases exists_digits u with ⟨digits, rest, rfl, hdigits, hrest⟩
        have hdigits' := takeDigits_append hdigits hrest
        cases hvalues : digitValues digits with
        | nil =>
            refine ⟨[], 0, _, rfl, .none, ?_⟩
            simp [takeExponent, hmark, htake, hdigits', hvalues]
        | cons d ds =>
            refine ⟨c :: (sign ++ digits), signed negative (ofDigits 10 (digitValues digits)), rest,
              by simp, ?_, ?_⟩
            · exact .marked hmark hsign hdigits (ne_nil_of_digitValues hvalues)
            · simp [takeExponent, hmark, htake, hdigits', hvalues]
      · exact ⟨[], 0, c :: t, rfl, .none, by simp [takeExponent, hmark]⟩

theorem decimal?_fault (h : decimal? token = some (.error (.fault fault))) :
    Exceeds token fault := by
  rcases exists_sign token with ⟨negative, sign, t, rfl, hsign, htake⟩
  rcases exists_digits t with ⟨whole, t, rfl, hwhole, ht⟩
  rcases exists_fraction t with ⟨fraction, places, t, rfl, hfraction, htake'⟩
  rcases exists_exponent t with ⟨exponent, scale, t, rfl, hexponent, htake''⟩
  have hwhole' := takeDigits_append hwhole ht
  cases hvalues : digitValues whole with
  | nil => simp [decimal?, htake, hwhole', hvalues] at h
  | cons d ds =>
      have hwhole_ne := ne_nil_of_digitValues hvalues
      simp only [decimal?, htake, hwhole', hvalues, htake', htake''] at h
      split at h
      · cases h
      split at h
      · rename_i hmark
        obtain rfl : t = [CodePoint.ofChar 'M'] := hmark
        split at h
        · cases h
        · rename_i hmake
          cases h
          rw [← hvalues] at hmake
          rcases Decimal.make_eq_error_iff.mp hmake with ⟨rfl, hrange⟩
          exact .decimal hsign hwhole hwhole_ne hfraction hexponent hrange
      · cases h

/-- What stands behind the whole part of a decimal does not continue its digits, and
starts neither a ratio nor a hexadecimal numeral. -/
theorem head?_exponent {exponent : Text} {scale : Int} (h : Exponent exponent scale) :
    ∀ c ∈ (exponent ++ [CodePoint.ofChar 'M']).head?, c = 'e' ∨ c = 'E' ∨ c = 'M' := by
  cases h with
  | none => simp
  | marked hmark => simpa using hmark.elim Or.inl fun h => Or.inr (Or.inl h)

theorem head?_fraction {fraction exponent : Text} {places : List Nat} {scale : Int}
    (hfraction : Fraction fraction places) (hexponent : Exponent exponent scale) :
    ∀ c ∈ (fraction ++ (exponent ++ [CodePoint.ofChar 'M'])).head?,
      c = '.' ∨ c = 'e' ∨ c = 'E' ∨ c = 'M' := by
  cases hfraction with
  | none => exact fun c hc => Or.inr (head?_exponent hexponent c hc)
  | point => simp

theorem takeExponent_append {exponent : Text} {scale : Int} (h : Exponent exponent scale) :
    takeExponent (exponent ++ [CodePoint.ofChar 'M']) = (scale, [CodePoint.ofChar 'M']) := by
  cases h with
  | none => rfl
  | @marked mark negative sign digits hmark hsign hdigits hne =>
      have hdigits' : takeDigits (digits ++ [CodePoint.ofChar 'M']) =
          (digitValues digits, [CodePoint.ofChar 'M']) := by
        apply takeDigits_append hdigits
        rintro c ⟨⟩
        rfl
      rcases exists_digitValues hdigits hne with ⟨d, ds, hvalues, -⟩
      simp [takeExponent, hmark, takeSign_append hsign hdigits hne, hdigits', hvalues]

theorem takeFraction_append {fraction exponent : Text} {places : List Nat} {scale : Int}
    (hfraction : Fraction fraction places) (hexponent : Exponent exponent scale) :
    takeFraction (fraction ++ (exponent ++ [CodePoint.ofChar 'M'])) =
      (places, exponent ++ [CodePoint.ofChar 'M']) := by
  have hhead := head?_exponent hexponent
  cases hfraction with
  | none =>
      cases exponent with
      | nil => rfl
      | cons c exponent =>
          have hpoint : c ≠ '.' := by
            rcases hhead c rfl with rfl | rfl | rfl <;> decide
          simp [takeFraction, hpoint]
  | @point digits hdigits =>
      apply takeDigits_append hdigits
      intro c hc
      rcases hhead c hc with rfl | rfl | rfl <;> rfl

theorem decimal?_of_exceeds {whole fraction exponent : Text} {places : List Nat} {scale : Int}
    (hsign : Sign negative sign) (hwhole : IsDigits whole) (hne : whole ≠ [])
    (hfraction : Fraction fraction places) (hexponent : Exponent exponent scale)
    (hrange : Decimal.IsOutOfRange
      ⟨negative, ofDigits 10 (digitValues whole ++ places), scale - places.length⟩) :
    decimal? (sign ++ (whole ++ (fraction ++ (exponent ++ [CodePoint.ofChar 'M'])))) =
      some (.error (.fault .decimalRange)) := by
  have hwhole' : takeDigits (whole ++ (fraction ++ (exponent ++ [CodePoint.ofChar 'M']))) =
      (digitValues whole, fraction ++ (exponent ++ [CodePoint.ofChar 'M'])) := by
    apply takeDigits_append hwhole
    intro c hc
    rcases head?_fraction hfraction hexponent c hc with rfl | rfl | rfl | rfl <;> rfl
  rcases exists_digitValues hwhole hne with ⟨d, ds, hvalues, -⟩
  have hmake := Decimal.make_eq_error_iff.mpr ⟨rfl, hrange⟩
  rw [hvalues] at hwhole'
  rw [hvalues, List.cons_append] at hmake
  have hmark : ("M" : Text) = [CodePoint.ofChar 'M'] := rfl
  simp [decimal?, takeSign_append hsign hwhole hne, hwhole', takeFraction_append hfraction hexponent,
    takeExponent_append hexponent, hmark, hmake]

end

/-- The tokens that are faults. -/
theorem ofToken_eq_fault_iff (token : Text) (fault : Fault) :
    ofToken token = .error (.fault fault) ↔ Exceeds token fault := by
  have hnumber : ofToken token = .error (.fault fault) ↔
      number? token = some (.error (.fault fault)) := by
    constructor
    · intro h
      unfold ofToken at h
      repeat' split at h
      case h_1 result hresult =>
          cases result with
          | ok n => cases h
          | error e =>
              cases h
              exact hresult
      all_goals cases h
    · intro h
      have hnil : token ≠ ("nil" : Text) := by
        rintro rfl
        cases h
      have htrue : token ≠ ("true" : Text) := by
        rintro rfl
        cases h
      have hfalse : token ≠ ("false" : Text) := by
        rintro rfl
        cases h
      simp [ofToken, hnil, htrue, hfalse, h, Except.map]
  rw [hnumber, number?]
  constructor
  · intro h
    rcases hinteger : integer? token with _ | result
    · rw [hinteger] at h
      rcases hratio : ratio? token with _ | result
      · rw [hratio] at h
        exact decimal?_fault h
      · rw [hratio] at h
        cases h
        exact ratio?_fault hratio
    · rw [hinteger] at h
      cases h
      exact integer?_fault hinteger
  · intro h
    cases h with
    | integer hsign hdigits hmark hlength =>
        rw [integer?_of_exceeds hsign hdigits hmark hlength]
        rfl
    | @ratio negative sign num den hsign hnum hnum_ne hden hden_ne hlength =>
        rw [integer?_eq_none hsign hnum hnum_ne, ratio?_of_exceeds hsign hnum hnum_ne hden hden_ne
          hlength]
        · rfl
        · rintro c ⟨⟩
          decide
        · exact List.cons_ne_nil _ _
        · have hlast :=
            getLast?_digits_ne hden hden_ne (d := 'N') rfl (num ++ [CodePoint.ofChar '/'])
          simpa using hlast
    | @decimal negative sign whole fraction exponent places scale hsign hwhole hwhole_ne hfraction
        hexponent hrange =>
        rw [integer?_eq_none hsign hwhole hwhole_ne, ratio?_eq_none hsign hwhole hwhole_ne,
          decimal?_of_exceeds hsign hwhole hwhole_ne hfraction hexponent hrange]
        · rfl
        · intro c hc
          rcases head?_fraction hfraction hexponent c hc with rfl | rfl | rfl | rfl <;> decide
        · intro c hc
          rcases head?_fraction hfraction hexponent c hc with rfl | rfl | rfl | rfl <;> decide
        · simp
        · rw [← List.append_assoc, ← List.append_assoc, List.getLast?_concat]
          decide

end Scalar

end EdnLint
