import EdnLint.Toml.Scalar
import EdnLint.Toml.Text
import Mathlib.Data.List.Infix

/-!
# What is left of a text

Every reader of TOML takes something off the front of the text still to be read, so what it
leaves is an end of that text. The lemmas here say so of the readers of numbers and moments, one
by one. Of digits they say more: what was taken holds just the digits that were read, and
otherwise only underscores.
-/

namespace EdnLint

namespace Toml

variable {t u : Text}

theorem skipBlanks_suffix (t : Text) : skipBlanks t <:+ t := List.dropWhile_suffix _

theorem behind?_suffix {mark : CodePoint} (h : behind? mark t = some u) : u <:+ t := by
  cases t with
  | nil => cases h
  | cons c t =>
      simp only [behind?] at h
      split at h
      · cases h
        exact List.suffix_cons c u
      · cases h

theorem takeSign_suffix (t : Text) : (Numeral.takeSign t).2 <:+ t := by
  cases t with
  | nil => exact List.suffix_rfl
  | cons c t =>
      simp only [Numeral.takeSign]
      split
      · exact List.suffix_cons c t
      split
      · exact List.suffix_cons c t
      · exact List.suffix_rfl

theorem fixedDigits?_suffix {count n : Nat} (h : fixedDigits? count t = some (n, u)) : u <:+ t := by
  simp only [fixedDigits?] at h
  split at h
  · cases h
    exact List.drop_suffix count t
  · cases h

theorem pair?_suffix {lo hi n : Nat} (h : pair? lo hi t = some (n, u)) : u <:+ t :=
  fixedDigits?_suffix (Option.filter_eq_some_iff.mp h).1

theorem date?_suffix {date : Date} (h : date? t = some (date, u)) : u <:+ t := by
  simp only [date?, Option.bind_eq_bind, Option.bind_eq_some_iff, Prod.exists] at h
  obtain ⟨year, t₁, h₁, t₂, h₂, month, t₃, h₃, t₄, h₄, day, t₅, h₅, h⟩ := h
  cases h
  exact (pair?_suffix h₅).trans <| (behind?_suffix h₄).trans <| (pair?_suffix h₃).trans <|
    (behind?_suffix h₂).trans (fixedDigits?_suffix h₁)

theorem micros?_suffix {n : Nat} (h : micros? t = some (n, u)) : u <:+ t := by
  simp only [micros?, Option.bind_eq_some_iff] at h
  obtain ⟨t₁, h₁, h⟩ := h
  split at h
  · cases h
  · cases h
    exact (List.drop_suffix _ t₁).trans (behind?_suffix h₁)

theorem getD_micros?_suffix (t : Text) : ((micros? t).getD (0, t)).2 <:+ t := by
  cases h : micros? t with
  | none => exact List.suffix_rfl
  | some found => exact micros?_suffix h

theorem time?_suffix {time : TimeOfDay} (h : time? t = some (time, u)) : u <:+ t := by
  simp only [time?, Option.bind_eq_bind, Option.bind_eq_some_iff, Prod.exists] at h
  obtain ⟨hour, t₁, h₁, t₂, h₂, minute, t₃, h₃, t₄, h₄, second, t₅, h₅, h⟩ := h
  cases h
  exact (getD_micros?_suffix t₅).trans <| (pair?_suffix h₅).trans <| (behind?_suffix h₄).trans <|
    (pair?_suffix h₃).trans <| (behind?_suffix h₂).trans (pair?_suffix h₁)

theorem offset?_suffix {offset : Int} (h : offset? t = some (offset, u)) : u <:+ t := by
  cases t with
  | nil => cases h
  | cons c t =>
      simp only [offset?] at h
      split at h
      · cases h
        exact List.suffix_cons c u
      split at h
      · simp only [Option.bind_eq_bind, Option.bind_eq_some_iff, Prod.exists] at h
        obtain ⟨hour, t₁, h₁, t₂, h₂, minute, t₃, h₃, h⟩ := h
        cases h
        exact (pair?_suffix h₃).trans <| (behind?_suffix h₂).trans <|
          (pair?_suffix h₁).trans (List.suffix_cons c t)
      · cases h

theorem timeBehind?_suffix {time : TimeOfDay} {offset : Option Int}
    (h : timeBehind? t = some (time, offset, u)) : u <:+ t := by
  cases t with
  | nil => cases h
  | cons c t =>
      simp only [timeBehind?] at h
      split at h
      · obtain ⟨⟨time', t₁⟩, h₁, h⟩ := Option.map_eq_some_iff.mp h
        have htime := (time?_suffix h₁).trans (List.suffix_cons c t)
        dsimp only at h
        split at h
        · rename_i hoffset
          cases h
          exact (offset?_suffix hoffset).trans htime
        · cases h
          exact htime
      · cases h

theorem moment?_suffix {result : Except Cause Setting} (h : moment? t = some (result, u)) :
    u <:+ t := by
  unfold moment? at h
  split at h
  · rename_i date t₁ hdate
    have hdate := date?_suffix hdate
    cases htime : timeBehind? t₁ with
    | none =>
        rw [htime] at h
        cases h
        exact hdate
    | some found =>
        rw [htime] at h
        cases h
        exact (timeBehind?_suffix htime).trans hdate
  · obtain ⟨⟨time, t₁⟩, htime, h⟩ := Option.map_eq_some_iff.mp h
    cases h
    exact time?_suffix htime

theorem special?_suffix {s : Setting} (h : special? t = some (s, u)) : u <:+ t := by
  obtain ⟨⟨word, x⟩, -, h⟩ := Option.map_eq_some_iff.mp h
  cases h
  exact List.drop_suffix _ t

/-- A stretch of text made of the digits `ds`, with underscores among them. -/
structure IsNumeral (base : Nat) (run : Text) (ds : List Nat) : Prop where
  mem : ∀ c ∈ run, c = '_' ∨ (digitBelow? base c).isSome
  digits : run.filterMap (digitBelow? base) = ds

namespace IsNumeral

variable {base d : Nat} {run : Text} {ds : List Nat}

theorem nil : IsNumeral base [] [] := ⟨by simp, rfl⟩

theorem digit {c : CodePoint} (hc : digitBelow? base c = some d) (h : IsNumeral base run ds) :
    IsNumeral base (c :: run) (d :: ds) where
  mem := by
    rw [List.forall_mem_cons]
    exact ⟨Or.inr (by rw [hc]; rfl), h.mem⟩
  digits := by rw [List.filterMap_cons_some hc, h.digits]

theorem underscore (h : IsNumeral base run ds) : IsNumeral base ('_' :: run) ds where
  mem := by
    rw [List.forall_mem_cons]
    exact ⟨Or.inl rfl, h.mem⟩
  digits := by
    have hmark : digitBelow? base '_' = none := rfl
    rw [List.filterMap_cons_none hmark, h.digits]

end IsNumeral

theorem exists_isNumeral_moreDigits (base : Nat) (t : Text) :
    ∃ run, t = run ++ (moreDigits base t).2 ∧ IsNumeral base run (moreDigits base t).1 := by
  fun_induction moreDigits base t with
  | case1 => exact ⟨[], rfl, .nil⟩
  | case2 c d hc => exact ⟨[c], rfl, .digit hc .nil⟩
  | case3 c hc => exact ⟨[], rfl, .nil⟩
  | case4 c e t d hc ds rest hmore ih =>
      rw [hmore] at ih
      obtain ⟨run, hrun, hnumeral⟩ := ih
      exact ⟨c :: run, congrArg (c :: ·) hrun, .digit hc hnumeral⟩
  | case5 e t d he ds rest hmore hc ih =>
      rw [hmore] at ih
      obtain ⟨run, hrun, hnumeral⟩ := ih
      exact ⟨'_' :: e :: run, by rw [hrun]; rfl, .underscore (.digit he hnumeral)⟩
  | case6 c e t hc d he hmark => exact ⟨[], rfl, .nil⟩
  | case7 c e t hc he => exact ⟨[], rfl, .nil⟩

variable {base : Nat} {ds : List Nat}

theorem exists_isNumeral_of_digits? (h : digits? base t = some (ds, u)) :
    ∃ run, t = run ++ u ∧ IsNumeral base run ds := by
  cases t with
  | nil => cases h
  | cons c t =>
      obtain ⟨d, hc, h⟩ := Option.map_eq_some_iff.mp h
      cases h
      obtain ⟨run, hrun, hnumeral⟩ := exists_isNumeral_moreDigits base t
      exact ⟨c :: run, congrArg (c :: ·) hrun, .digit hc hnumeral⟩

theorem digits?_suffix (h : digits? base t = some (ds, u)) : u <:+ t := by
  obtain ⟨run, rfl, -⟩ := exists_isNumeral_of_digits? h
  exact List.suffix_append run u

theorem basedInteger?_suffix {n : Nat} (h : basedInteger? t = some (n, u)) : u <:+ t := by
  unfold basedInteger? at h
  split at h
  · rename_i z b t
    split at h
    · obtain ⟨base, -, h⟩ := Option.bind_eq_some_iff.mp h
      obtain ⟨⟨ds, rest⟩, hdigits, h⟩ := Option.map_eq_some_iff.mp h
      cases h
      exact (digits?_suffix hdigits).trans (List.suffix_append [z, b] t)
    · cases h
  · cases h

theorem exists_isNumeral_of_wholePart? (h : wholePart? t = some (ds, u)) :
    ∃ run, t = run ++ u ∧ IsNumeral 10 run ds := by
  cases t with
  | nil => cases h
  | cons c t =>
      simp only [wholePart?] at h
      split at h
      · rename_i hzero
        cases h
        subst hzero
        exact ⟨['0'], rfl, .digit rfl .nil⟩
      · exact exists_isNumeral_of_digits? h

theorem fraction?_suffix (h : fraction? t = some (ds, u)) : u <:+ t := by
  obtain ⟨t₁, hpoint, h⟩ := Option.bind_eq_some_iff.mp h
  exact (digits?_suffix h).trans (behind?_suffix hpoint)

theorem exponent?_suffix {n : Int} (h : exponent? t = some (n, u)) : u <:+ t := by
  cases t with
  | nil => cases h
  | cons c t =>
      simp only [exponent?] at h
      split at h
      · obtain ⟨⟨ds, rest⟩, hdigits, h⟩ := Option.map_eq_some_iff.mp h
        cases h
        exact (digits?_suffix hdigits).trans <| (takeSign_suffix t).trans (List.suffix_cons c t)
      · cases h

/-- What is left behind a part that may be missing. -/
theorem getD_snd_suffix {α : Type} {part : Option (α × Text)}
    (h : ∀ a u, part = some (a, u) → u <:+ t) : (part.map (·.2)).getD t <:+ t := by
  cases part with
  | none => exact List.suffix_rfl
  | some found => exact h found.1 found.2 rfl

/-- Somewhere in the text stands an integer with more digits than are converted. -/
def HasLongInteger (t : Text) : Prop :=
  ∃ run ds, run <:+: t ∧ IsNumeral 10 run ds ∧ Number.maxDigits < ds.length

theorem HasLongInteger.of_suffix (h : HasLongInteger u) (hu : u <:+ t) : HasLongInteger t := by
  obtain ⟨run, ds, hrun, hlong⟩ := h
  exact ⟨run, ds, hrun.trans hu.isInfix, hlong⟩

variable {result : Except Fault Setting}

theorem decimal?_suffix (h : decimal? t = some (result, u)) : u <:+ t := by
  obtain ⟨⟨whole, t₁⟩, hwhole, h⟩ := Option.map_eq_some_iff.mp h
  obtain ⟨run, hrun, -⟩ := exists_isNumeral_of_wholePart? hwhole
  have hwhole : t₁ <:+ (Numeral.takeSign t).2 := ⟨run, hrun.symm⟩
  have hu := congrArg Prod.snd h
  simp only [apply_ite Prod.snd, ite_self] at hu
  rw [← hu]
  exact (getD_snd_suffix fun _ _ => exponent?_suffix).trans <|
    (getD_snd_suffix fun _ _ => fraction?_suffix).trans <| hwhole.trans (takeSign_suffix t)

/-- A number is a fault only as an integer in base ten that is too long. -/
theorem hasLongInteger_of_decimal? {fault : Fault} (h : decimal? t = some (.error fault, u)) :
    fault = .digitLimit ∧ HasLongInteger t := by
  obtain ⟨⟨whole, t₁⟩, hwhole, h⟩ := Option.map_eq_some_iff.mp h
  obtain ⟨run, hrun, hnumeral⟩ := exists_isNumeral_of_wholePart? hwhole
  dsimp only at h
  split at h
  · split at h
    · rename_i hlong
      cases h
      have hinfix : run <:+: (Numeral.takeSign t).2 := ⟨[], t₁, hrun.symm⟩
      exact ⟨rfl, run, whole, hinfix.trans (takeSign_suffix t).isInfix, hnumeral, hlong⟩
    · cases h
  · cases h

theorem number?_suffix (h : number? t = some (result, u)) : u <:+ t := by
  unfold number? at h
  split at h
  · rename_i hbased
    cases h
    exact basedInteger?_suffix hbased
  · exact decimal?_suffix h

theorem hasLongInteger_of_number? {fault : Fault} (h : number? t = some (.error fault, u)) :
    fault = .digitLimit ∧ HasLongInteger t := by
  unfold number? at h
  split at h
  · cases h
  · exact hasLongInteger_of_decimal? h

end Toml

end EdnLint
