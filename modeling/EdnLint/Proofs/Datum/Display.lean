import EdnLint.Schema.Problem
import Mathlib.Data.List.Forall2

/-!
# Data that cannot be shown

Showing a datum in a message fails if an integer in it, or a part of a ratio, has
too many digits. `IsTooLong` says so of numbers and follows the datum down to them,
through keys as well as values. It is the same for a datum by itself and inside a
container, although the two are not spelled alike.
-/

namespace EdnLint

/-- The computation ends in an error. -/
def Fails {ε α : Type} (x : Except ε α) : Prop := ∃ e, x = .error e

section

variable {ε α β : Type}

@[simp] theorem fails_error (e : ε) : Fails (.error e : Except ε α) := ⟨e, rfl⟩

@[simp] theorem not_fails_ok (a : α) : ¬ Fails (.ok a : Except ε α) := by
  rintro ⟨e, h⟩
  cases h

@[simp] theorem not_fails_pure (a : α) : ¬ Fails (pure a : Except ε α) := not_fails_ok a

@[simp] theorem fails_map_iff (f : α → β) (x : Except ε α) : Fails (f <$> x) ↔ Fails x := by
  cases x with
  | error e => exact iff_of_true (fails_error e) (fails_error e)
  | ok a => exact iff_of_false (not_fails_ok (f a)) (not_fails_ok a)

/-- Two computations in a row, the second of which fails or not whatever the first
one gives. -/
theorem fails_bind_iff {p : Prop} {x : Except ε α} {f : α → Except ε β}
    (h : ∀ a, Fails (f a) ↔ p) : Fails (x >>= f) ↔ Fails x ∨ p := by
  cases x with
  | error e => exact iff_of_true (fails_error e) (Or.inl (fails_error e))
  | ok a =>
      rw [or_iff_right (not_fails_ok a)]
      exact h a

theorem exists_of_bind_eq_ok {x : Except ε α} {f : α → Except ε β} {b : β}
    (h : (do f (← x)) = .ok b) : ∃ a, x = .ok a ∧ f a = .ok b := by
  cases x with
  | error e => cases h
  | ok a => exact ⟨a, rfl, h⟩

theorem fails_mapM_iff (f : α → Except ε β) (items : List α) :
    Fails (items.mapM f) ↔ ∃ a ∈ items, Fails (f a) := by
  induction items with
  | nil => simp
  | cons a items ih =>
      have hrest : ∀ b, Fails (do return b :: (← items.mapM f)) ↔ ∃ a ∈ items, Fails (f a) := by
        intro b
        simpa using ih
      rw [List.mapM_cons, fails_bind_iff hrest]
      simp

theorem forall₂_of_mapM {f : α → Except ε β} {items : List α} {found : List β}
    (h : items.mapM f = .ok found) : List.Forall₂ (fun a b => f a = .ok b) items found := by
  induction items generalizing found with
  | nil =>
      cases h
      exact .nil
  | cons a items ih =>
      rw [List.mapM_cons] at h
      obtain ⟨b, hb, h⟩ := exists_of_bind_eq_ok h
      obtain ⟨bs, hbs, h⟩ := exists_of_bind_eq_ok h
      cases h
      exact .cons hb (ih hbs)

end

namespace Number

/-- An integer, or a part of a ratio, has too many digits to be written. -/
def IsTooLong : Number → Prop
  | .int n => maxDigits < Binary64.digitCount n.natAbs
  | .ratio r =>
      maxDigits < Binary64.digitCount r.num.natAbs ∨ maxDigits < Binary64.digitCount r.den
  | .float _ => False
  | .decimal _ => False

theorem fails_intText_iff (n : Int) :
    Fails (intText n) ↔ maxDigits < Binary64.digitCount n.natAbs := by
  unfold intText
  split
  · rename_i h
    exact iff_of_true (fails_error _) h
  · rename_i h
    exact iff_of_false (not_fails_ok _) h

theorem fails_ratioText_iff (r : Rat) : Fails (ratioText r) ↔ (ratio r).IsTooLong := by
  have hden : ∀ num, Fails (do
      if r.den = 1 then return num
      let den ← intText r.den
      return num ++ CodePoint.ofChar '/' :: den) ↔ maxDigits < Binary64.digitCount r.den := by
    intro num
    split
    · -- a denominator that is not written is short
      rename_i hone
      rw [hone]
      exact iff_of_false (not_fails_pure num) (by decide)
    · simp [fails_intText_iff]
  unfold ratioText
  rw [fails_bind_iff hden, fails_intText_iff]
  rfl

theorem fails_text_iff (n : Number) : Fails n.text ↔ n.IsTooLong := by
  cases n with
  | int n => exact fails_intText_iff n
  | float x => exact iff_of_false (not_fails_ok _) id
  | ratio r => exact fails_ratioText_iff r
  | decimal d => exact iff_of_false (not_fails_ok _) id

end Number

namespace Atom

def IsTooLong : Atom → Prop
  | .number n => n.IsTooLong
  | _ => False

theorem fails_plain_iff (a : Atom) : Fails a.plain ↔ a.IsTooLong := by
  cases a with
  | number n => exact n.fails_text_iff
  | _ => exact iff_of_false (not_fails_ok _) id

theorem fails_detailed_iff (a : Atom) : Fails a.detailed ↔ a.IsTooLong := by
  cases a with
  | number n =>
      cases n with
      | int n => exact Number.fails_intText_iff n
      | float x => exact iff_of_false (not_fails_ok _) id
      | ratio r =>
          have hden : ∀ num, Fails (do
              let den ← Number.intText r.den
              return ("Fraction(" : Text) ++ num ++ ", " ++ den ++ ")") ↔
                Number.maxDigits < Binary64.digitCount r.den := by
            intro num
            simp [Number.fails_intText_iff]
          unfold detailed
          rw [fails_bind_iff hden, Number.fails_intText_iff]
          rfl
      | decimal d => exact iff_of_false (not_fails_ok _) id
  | _ => exact iff_of_false (not_fails_ok _) id

end Atom

namespace Key

/-- The key holds a number that is too long to be written. -/
inductive IsTooLong : Key → Prop
  | atom {a : Atom} : a.IsTooLong → IsTooLong (.atom a)
  | tuple {items : List Key} {k : Key} : k ∈ items → IsTooLong k → IsTooLong (.tuple items)
  | bag {items : List Key} {k : Key} : k ∈ items → IsTooLong k → IsTooLong (.bag items)

mutual

theorem fails_detailed_iff : ∀ k : Key, Fails k.detailed ↔ k.IsTooLong
  | .atom a => by
      rw [detailed, a.fails_detailed_iff]
      constructor
      · exact .atom
      · intro h
        cases h with
        | atom h => exact h
  | .tuple items => by
      simp only [detailed, bind_pure_comp, fails_map_iff, fails_detailedAll_iff items]
      constructor
      · rintro ⟨k, hk, h⟩
        exact .tuple hk h
      · intro h
        cases h with
        | tuple hk h => exact ⟨_, hk, h⟩
  | .bag items => by
      have hshown : ∀ shown : List Text, Fails (do
          if shown.isEmpty then return "frozenset()"
          return ("frozenset(\x7b" : Text) ++ Text.join ", " shown ++ "\x7d)" :
            Except Fault Text) ↔ False := by
        intro shown
        split <;> simp
      rw [detailed, fails_bind_iff hshown, or_false, fails_detailedAll_iff items]
      constructor
      · rintro ⟨k, hk, h⟩
        exact .bag hk h
      · intro h
        cases h with
        | bag hk h => exact ⟨_, hk, h⟩

theorem fails_detailedAll_iff :
    ∀ ks : List Key, Fails (detailedAll ks) ↔ ∃ k ∈ ks, k.IsTooLong
  | [] => by simp [detailedAll]
  | k :: ks => by
      have hrest : ∀ shown, Fails (do return shown :: (← detailedAll ks)) ↔
          ∃ k ∈ ks, k.IsTooLong := by
        intro shown
        simpa using fails_detailedAll_iff ks
      rw [detailedAll, fails_bind_iff hrest, fails_detailed_iff k]
      simp

end

theorem fails_plain_iff (k : Key) : Fails k.plain ↔ k.IsTooLong := by
  rw [← fails_detailed_iff]
  cases k with
  | atom a => exact a.fails_plain_iff.trans a.fails_detailed_iff.symm
  | _ => rfl

end Key

namespace Datum

/-- The datum holds a number that is too long to be written. -/
inductive IsTooLong : Datum → Prop
  | atom {a : Atom} : a.IsTooLong → IsTooLong (.atom a)
  | item {items : List Datum} {d : Datum} : d ∈ items → IsTooLong d → IsTooLong (.vector items)
  | member {items : List Key} {k : Key} : k ∈ items → k.IsTooLong → IsTooLong (.set items)
  | key {entries : List (Key × Datum)} {k : Key} {d : Datum} :
      (k, d) ∈ entries → k.IsTooLong → IsTooLong (.map entries)
  | value {entries : List (Key × Datum)} {k : Key} {d : Datum} :
      (k, d) ∈ entries → IsTooLong d → IsTooLong (.map entries)

mutual

theorem fails_detailed_iff : ∀ d : Datum, Fails d.detailed ↔ d.IsTooLong
  | .atom a => by
      rw [detailed, a.fails_detailed_iff]
      constructor
      · exact .atom
      · intro h
        cases h with
        | atom h => exact h
  | .vector items => by
      simp only [detailed, bind_pure_comp, fails_map_iff, fails_detailedAll_iff items]
      constructor
      · rintro ⟨d, hd, h⟩
        exact .item hd h
      · intro h
        cases h with
        | item hd h => exact ⟨_, hd, h⟩
  | .set items => by
      have hshown : ∀ shown : List Text, Fails (do
          if shown.isEmpty then return "set()"
          return ("\x7b" : Text) ++ Text.join ", " shown ++ "\x7d" :
            Except Fault Text) ↔ False := by
        intro shown
        split <;> simp
      rw [detailed, fails_bind_iff hshown, or_false, Key.fails_detailedAll_iff]
      constructor
      · rintro ⟨k, hk, h⟩
        exact .member hk h
      · intro h
        cases h with
        | member hk h => exact ⟨_, hk, h⟩
  | .map entries => by
      simp only [detailed, bind_pure_comp, fails_map_iff, fails_detailedEntries_iff entries]
      constructor
      · rintro ⟨k, d, hentry, hk | hd⟩
        · exact .key hentry hk
        · exact .value hentry hd
      · intro h
        cases h with
        | key hentry hk => exact ⟨_, _, hentry, Or.inl hk⟩
        | value hentry hd => exact ⟨_, _, hentry, Or.inr hd⟩

theorem fails_detailedAll_iff :
    ∀ ds : List Datum, Fails (detailedAll ds) ↔ ∃ d ∈ ds, d.IsTooLong
  | [] => by simp [detailedAll]
  | d :: ds => by
      have hrest : ∀ shown, Fails (do return shown :: (← detailedAll ds)) ↔
          ∃ d ∈ ds, d.IsTooLong := by
        intro shown
        simpa using fails_detailedAll_iff ds
      rw [detailedAll, fails_bind_iff hrest, fails_detailed_iff d]
      simp

theorem fails_detailedEntries_iff :
    ∀ entries : List (Key × Datum), Fails (detailedEntries entries) ↔
      ∃ k d, (k, d) ∈ entries ∧ (k.IsTooLong ∨ d.IsTooLong)
  | [] => by simp [detailedEntries]
  | (k, d) :: entries => by
      have hrest : ∀ entry : Text, Fails (do return entry :: (← detailedEntries entries)) ↔
          ∃ k d, (k, d) ∈ entries ∧ (k.IsTooLong ∨ d.IsTooLong) := by
        intro entry
        simpa using fails_detailedEntries_iff entries
      rw [detailedEntries,
        fails_bind_iff fun key => fails_bind_iff fun shown => hrest (key ++ ": " ++ shown),
        Key.fails_detailed_iff, fails_detailed_iff d]
      constructor
      · rintro (hk | hd | ⟨k', d', hentry, h⟩)
        · exact ⟨k, d, List.mem_cons_self, Or.inl hk⟩
        · exact ⟨k, d, List.mem_cons_self, Or.inr hd⟩
        · exact ⟨k', d', List.mem_cons_of_mem _ hentry, h⟩
      · rintro ⟨k', d', hentry, h⟩
        rcases List.mem_cons.mp hentry with heq | hentry
        · cases heq
          exact h.elim Or.inl fun hd => Or.inr (Or.inl hd)
        · exact Or.inr (Or.inr ⟨k', d', hentry, h⟩)

end

theorem fails_plain_iff (d : Datum) : Fails d.plain ↔ d.IsTooLong := by
  rw [← fails_detailed_iff]
  cases d with
  | atom a => exact a.fails_plain_iff.trans a.fails_detailed_iff.symm
  | _ => rfl

end Datum

namespace Choices

/-- One of the choices holds a number that is too long to be written. -/
def IsTooLong : Choices → Prop
  | .vector items => ∃ d ∈ items, d.IsTooLong
  | .set items => ∃ k ∈ items, k.IsTooLong

theorem fails_shown_iff (choices : Choices) : Fails choices.shown ↔ choices.IsTooLong := by
  cases choices with
  | vector items => simp only [shown, fails_mapM_iff, Datum.fails_plain_iff, IsTooLong]
  | set items => simp only [shown, fails_mapM_iff, Key.fails_plain_iff, IsTooLong]

end Choices

namespace Problem

/-- The problem quotes something that is too long to be written. -/
def IsTooLong : Problem → Prop
  | .unknownType type => type.IsTooLong
  | .unknownKey key => key.IsTooLong
  | .tooSmall bound value => bound.IsTooLong ∨ value.IsTooLong
  | .tooLarge bound value => bound.IsTooLong ∨ value.IsTooLong
  | .tooShort bound _ => bound.IsTooLong
  | .tooLong bound _ => bound.IsTooLong
  | .tooFewItems bound _ => bound.IsTooLong
  | .tooManyItems bound _ => bound.IsTooLong
  | .notAmong choices _ => choices.IsTooLong
  | .keyMissing key => key.IsTooLong
  | _ => False

/-- A problem that cannot be worded quotes something too long. -/
theorem fails_message_iff (p : Problem) : Fails p.message ↔ p.IsTooLong := by
  cases p with
  | tooSmall bound value =>
      simp only [message, bind_pure_comp]
      rw [fails_bind_iff fun shown => fails_map_iff _ _, bound.fails_plain_iff,
        value.fails_plain_iff]
      rfl
  | tooLarge bound value =>
      simp only [message, bind_pure_comp]
      rw [fails_bind_iff fun shown => fails_map_iff _ _, bound.fails_plain_iff,
        value.fails_plain_iff]
      rfl
  | _ =>
      simp [message, IsTooLong, Datum.fails_plain_iff, Key.fails_plain_iff, Atom.fails_plain_iff,
        Choices.fails_shown_iff]

end Problem

end EdnLint
