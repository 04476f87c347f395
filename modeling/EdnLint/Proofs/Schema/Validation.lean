import EdnLint.Proofs.Schema.Shape
import EdnLint.Schema.Validation

/-!
# What stops validation

Besides what is too long to be quoted and patterns that cannot be read, an order
that does not exist stops validation: a decimal has none with the float that is not
a number. `Schema.Stops` goes down a schema and a value together, to the places
where one of these comes up. A required key is written out before it is looked for,
so it can stop the validation of a map that has it.
-/

namespace EdnLint

namespace Number

theorem orderable_comm (m n : Number) : m.orderable n = n.orderable m := by
  unfold orderable
  grind

/-- Asking for the order of two numbers may fail, and what follows an answer may. -/
theorem isStopped_whenOk_less_iff (m n : Number) (p : Problem) (path : List Key) :
    (Report.whenOk (m.less n) p path).IsStopped ↔
      m.orderable n = false ∨ (m.compare? n = some .lt ∧ p.IsTooLong) := by
  unfold less
  split <;> simp_all [Report.whenOk]

end Number

namespace SchemaType

variable {v : Datum}

theorem admits_integer_iff : integer.admits v = true ↔ ∃ n, v = .atom (.number (.int n)) := by
  match v with
  | .atom (.number (.int n)) => exact iff_of_true rfl ⟨n, rfl⟩
  | .atom (.number (.float _)) | .atom (.number (.ratio _)) | .atom (.number (.decimal _))
  | .atom .nil | .atom (.bool _) | .atom (.string _) | .atom (.keyword _) | .atom (.symbol _)
  | .vector _ | .set _ | .map _ => exact iff_of_false Bool.false_ne_true (by simp)

theorem admits_number_iff : number.admits v = true ↔ ∃ n, v = .atom (.number n) := by
  match v with
  | .atom (.number (.int n)) => exact iff_of_true rfl ⟨_, rfl⟩
  | .atom (.number (.float _)) | .atom (.number (.ratio _)) | .atom (.number (.decimal _)) =>
      exact iff_of_true rfl ⟨_, rfl⟩
  | .atom .nil | .atom (.bool _) | .atom (.string _) | .atom (.keyword _) | .atom (.symbol _)
  | .vector _ | .set _ | .map _ => exact iff_of_false Bool.false_ne_true (by simp)

end SchemaType

namespace Schema

open Vocabulary

/-- A number is held against its limits, and has no order with one of them or is
beyond one and the message cannot be written. -/
inductive LimitsStop (low high : Option Bound) (n : Number) : Prop
  | unordered {b : Bound} :
      low = some b ∨ high = some b → n.orderable b.value = false → LimitsStop low high n
  | tooSmall {b : Bound} :
      low = some b → n.compare? b.value = some .lt → b.written.IsTooLong ∨ n.IsTooLong →
      LimitsStop low high n
  | tooLarge {b : Bound} :
      high = some b → b.value.compare? n = some .lt → b.written.IsTooLong ∨ n.IsTooLong →
      LimitsStop low high n

/-- A count is beyond a limit that is too long to be quoted. -/
inductive CountStops (low high : Option Bound) (count : Nat) : Prop
  | tooFew {b : Bound} :
      low = some b → b.above count = true → b.written.IsTooLong → CountStops low high count
  | tooMany {b : Bound} :
      high = some b → b.below count = true → b.written.IsTooLong → CountStops low high count

/-- The validation of a value is stopped. -/
inductive Stops [Pattern.Engine] : Schema → Datum → Prop
  | integer {low high : Option Bound} {n : Int} :
      LimitsStop low high (.int n) → Stops (.integer low high) (.atom (.number (.int n)))
  | number {low high : Option Bound} {n : Number} :
      LimitsStop low high n → Stops (.number low high) (.atom (.number n))
  | length {low high : Option Bound} {pattern : Option Text} {t : Text} :
      CountStops low high t.length → Stops (.string low high pattern) (.atom (.string t))
  | pattern {low high : Option Bound} {pattern t : Text} {fault : Fault} :
      Pattern.Engine.read pattern = .error (.fault fault) →
      Stops (.string low high (some pattern)) (.atom (.string t))
  | keyword {choices : Choices} {name : Text} :
      choices.admits name = false → choices.IsTooLong →
      Stops (.keyword (some choices)) (.atom (.keyword name))
  | items {low high : Option Bound} {every : Schema} {items : List Datum} :
      CountStops low high items.length → Stops (.vector low high every) (.vector items)
  | item {low high : Option Bound} {every : Schema} {items : List Datum} {d : Datum} :
      d ∈ items → Stops every d → Stops (.vector low high every) (.vector items)
  | members {low high : Option Bound} {every : Schema} {members : List Key} :
      CountStops low high members.length → Stops (.set low high every) (.set members)
  | member {low high : Option Bound} {every : Schema} {members : List Key} {d : Datum} :
      d ∈ Datum.ofKeys members → Stops every d → Stops (.set low high every) (.set members)
  /-- A required key is too long to be written, whether it is there or not. -/
  | required {required : List Key} {keys : List (Key × Schema)} {values : Schema}
      {closed : Bool} {entries : List (Key × Datum)} {k : Key} :
      k ∈ required → k.IsTooLong → Stops (.map required keys values closed) (.map entries)
  | entry {required : List Key} {keys : List (Key × Schema)} {values s : Schema}
      {closed : Bool} {entries : List (Key × Datum)} {k : Key} {d : Datum} :
      (k, d) ∈ entries → Key.lookup? k keys = some s → Stops s d →
      Stops (.map required keys values closed) (.map entries)
  | value {required : List Key} {keys : List (Key × Schema)} {values : Schema}
      {closed : Bool} {entries : List (Key × Datum)} {k : Key} {d : Datum} :
      (k, d) ∈ entries → (∀ s, Key.lookup? k keys = some s → s = .absent) → Stops values d →
      Stops (.map required keys values closed) (.map entries)
  | unknown {required : List Key} {keys : List (Key × Schema)} {entries : List (Key × Datum)}
      {k : Key} {d : Datum} :
      (k, d) ∈ entries → Key.lookup? k keys = none → isAnnotation k = false → k.IsTooLong →
      Stops (.map required keys .absent true) (.map entries)

section

variable {path : List Key} {v : Datum}

theorem not_stops_absent [Pattern.Engine] : ¬ Stops .absent v := by
  rintro ⟨⟩

theorem isPresent_iff {s : Schema} : s.isPresent = true ↔ s ≠ .absent := by
  cases s <;> simp [isPresent]

/-- That a value is of the wrong type can always be said. -/
theorem isStopped_typed_iff {t : SchemaType} {report : Report} :
    (typed t path v report).IsStopped ↔ t.admits v = true ∧ report.IsStopped := by
  unfold typed
  split <;> simp_all [Problem.IsTooLong]

theorem limitsStop_iff {low high : Option Bound} {n : Number} :
    LimitsStop low high n ↔
      (∃ b, low = some b ∧ (n.orderable b.value = false ∨
        n.compare? b.value = some .lt ∧ (b.written.IsTooLong ∨ n.IsTooLong))) ∨
      ∃ b, high = some b ∧ (n.orderable b.value = false ∨
        b.value.compare? n = some .lt ∧ (b.written.IsTooLong ∨ n.IsTooLong)) := by
  constructor
  · intro h
    cases h with
    | unordered hb horder =>
        rcases hb with hb | hb
        · exact Or.inl ⟨_, hb, Or.inl horder⟩
        · exact Or.inr ⟨_, hb, Or.inl horder⟩
    | tooSmall hb hless hlong => exact Or.inl ⟨_, hb, Or.inr ⟨hless, hlong⟩⟩
    | tooLarge hb hless hlong => exact Or.inr ⟨_, hb, Or.inr ⟨hless, hlong⟩⟩
  · rintro (⟨b, hb, horder | ⟨hless, hlong⟩⟩ | ⟨b, hb, horder | ⟨hless, hlong⟩⟩)
    · exact .unordered (Or.inl hb) horder
    · exact .tooSmall hb hless hlong
    · exact .unordered (Or.inr hb) horder
    · exact .tooLarge hb hless hlong

theorem isStopped_limits_iff {low high : Option Bound} {n : Number} :
    (limits low high path (.number n)).IsStopped ↔ LimitsStop low high n := by
  rw [limitsStop_iff]
  cases low <;> cases high <;>
    simp [limits, Number.isStopped_whenOk_less_iff, n.orderable_comm, Problem.IsTooLong,
      Atom.IsTooLong]

theorem countStops_iff {low high : Option Bound} {count : Nat} :
    CountStops low high count ↔
      (∃ b, low = some b ∧ b.above count = true ∧ b.written.IsTooLong) ∨
      ∃ b, high = some b ∧ b.below count = true ∧ b.written.IsTooLong := by
  constructor
  · intro h
    cases h with
    | tooFew hb hbeyond hlong => exact Or.inl ⟨_, hb, hbeyond, hlong⟩
    | tooMany hb hbeyond hlong => exact Or.inr ⟨_, hb, hbeyond, hlong⟩
  · rintro (⟨b, hb, hbeyond, hlong⟩ | ⟨b, hb, hbeyond, hlong⟩)
    · exact .tooFew hb hbeyond hlong
    · exact .tooMany hb hbeyond hlong

theorem isStopped_countLimits_iff {low high : Option Bound} {few many : Atom → Nat → Problem}
    {count : Nat} (hfew : ∀ b, (few b count).IsTooLong ↔ b.IsTooLong)
    (hmany : ∀ b, (many b count).IsTooLong ↔ b.IsTooLong) :
    (countLimits low high few many path count).IsStopped ↔ CountStops low high count := by
  rw [countStops_iff]
  cases low <;> cases high <;> simp [countLimits, hfew, hmany]

theorem isStopped_matching_iff [Pattern.Engine] {pattern : Option Text} {t : Text} :
    (matching pattern path t).IsStopped ↔
      ∃ p fault, pattern = some p ∧ Pattern.Engine.read p = .error (.fault fault) := by
  cases pattern with
  | none => simp [matching]
  | some pattern =>
      simp only [matching]
      split
      all_goals
        rename_i h
        simp [h, Problem.IsTooLong]

theorem mem_of_named {required : List Key} {shown : List (Text × Key)}
    (h : named required = .ok shown) : ∀ p ∈ shown, p.2 ∈ required := by
  induction required generalizing shown with
  | nil =>
      cases h
      simp
  | cons k required ih =>
      unfold named at h ih
      rw [List.mapM_cons] at h
      cases hk : k.plain with
      | error fault => simp [hk, bind, Except.bind] at h
      | ok text =>
          cases hrest : required.mapM fun k => do return (← k.plain, k) with
          | error fault => simp_all [bind, Except.bind, pure, Except.pure]
          | ok rest =>
              have hshown : shown = (text, k) :: rest := by
                simp_all [bind, Except.bind, pure, Except.pure]
              subst hshown
              rw [List.forall_mem_cons]
              refine ⟨List.mem_cons_self, ?_⟩
              intro p hp
              exact List.mem_cons_of_mem k (ih hrest p hp)

theorem isStopped_requiredKeys_iff {required : List Key} {entries : List (Key × Datum)} :
    (requiredKeys required path entries).IsStopped ↔ ∃ k ∈ required, k.IsTooLong := by
  have hfails : Fails (named required) ↔ ∃ k ∈ required, k.IsTooLong := by
    simp [named, fails_mapM_iff, Key.fails_plain_iff]
  rw [← hfails]
  unfold requiredKeys
  split
  · rename_i fault h
    simp [h]
  · rename_i shown h
    refine iff_of_false ?_ (by simp [h])
    rw [Report.isStopped_all_map_iff]
    rintro ⟨⟨text, k⟩, hmem, hstopped⟩
    have hk : k ∈ required := mem_of_named h (text, k) (List.mem_mergeSort.mp hmem)
    have hlong : k.IsTooLong := ((Report.isStopped_when_iff _ _ _).mp hstopped).2
    have := hfails.mpr ⟨k, hk, hlong⟩
    simp [h] at this

theorem isStopped_eachFrom_iff {check : List Key → Datum → Report} {P : Datum → Prop}
    (h : ∀ path d, (check path d).IsStopped ↔ P d) (indexed : Bool) (i : Nat)
    (items : List Datum) :
    (eachFrom check indexed path i items).IsStopped ↔ ∃ d ∈ items, P d := by
  induction items generalizing i with
  | nil => simp [eachFrom]
  | cons d items ih => simp [eachFrom, h, ih]

/-- Items that are counted and then checked one by one. -/
theorem isStopped_counted_iff {check : List Key → Datum → Report} {P : Datum → Prop}
    (h : ∀ path d, (check path d).IsStopped ↔ P d) {low high : Option Bound} {count : Nat}
    {indexed : Bool} {items : List Datum} :
    ((countLimits low high .tooFewItems .tooManyItems path count).andThen
      (eachFrom check indexed path 0 items)).IsStopped ↔
        CountStops low high count ∨ ∃ d ∈ items, P d := by
  rw [Report.isStopped_andThen_iff, isStopped_countLimits_iff (fun _ => Iff.rfl)
    (fun _ => Iff.rfl), isStopped_eachFrom_iff h]

theorem isStopped_text_iff [Pattern.Engine] {low high : Option Bound} {pattern : Option Text}
    {t : Text} :
    ((countLimits low high .tooShort .tooLong path t.length).andThen
      (matching pattern path t)).IsStopped ↔
        CountStops low high t.length ∨
          ∃ p fault, pattern = some p ∧ Pattern.Engine.read p = .error (.fault fault) := by
  rw [Report.isStopped_andThen_iff, isStopped_countLimits_iff (fun _ => Iff.rfl)
    (fun _ => Iff.rfl), isStopped_matching_iff]

end

variable [Pattern.Engine]

section

variable {keys : List (Key × Schema)} {values : Schema} {closed : Bool}

theorem validateUnder_eq (indexed : Bool) (path : List Key) (key : Key)
    (keys : List (Key × Schema)) (d : Datum) :
    validateUnder indexed path key keys d =
      ((Key.lookup? key keys).filter isPresent).map fun s => validate indexed path s d := by
  induction keys with
  | nil => rfl
  | cons row keys ih =>
      rcases row with ⟨k, s⟩
      simp only [validateUnder, Key.lookup?_cons]
      split
      · split <;> simp_all [Option.filter]
      · exact ih

/-- What is reported on one entry of a map. -/
def entryReport (indexed : Bool) (path : List Key) (keys : List (Key × Schema)) (values : Schema)
    (closed : Bool) (k : Key) (d : Datum) : Report :=
  match validateUnder indexed path k keys d with
  | some report => report
  | none =>
      if values.isPresent then validate indexed path values d
      else
        let known := (Key.lookup? k keys).isSome || isAnnotation k
        Report.when (closed && !known) (.unknownKey k) path

theorem validate_map (indexed : Bool) (path : List Key) (required : List Key)
    (entries : List (Key × Datum)) :
    validate indexed path (.map required keys values closed) (.map entries) =
      (requiredKeys required path entries).andThen (Report.all (entries.map fun e =>
        entryReport indexed (path ++ [e.1]) keys values closed e.1 e.2)) := rfl

/-- An entry is checked against the schema of its key, else against the one for
values, else its key has to be known. -/
theorem isStopped_entryReport_iff (closed : Bool) {indexed : Bool} {path : List Key} {k : Key}
    {d : Datum}
    (hrow : ∀ s, Key.lookup? k keys = some s → ((validate indexed path s d).IsStopped ↔ Stops s d))
    (hvalues : (validate indexed path values d).IsStopped ↔ Stops values d) :
    (entryReport indexed path keys values closed k d).IsStopped ↔
      (∃ s, Key.lookup? k keys = some s ∧ Stops s d) ∨
      ((∀ s, Key.lookup? k keys = some s → s = .absent) ∧ Stops values d) ∨
      (values = .absent ∧ closed = true ∧ Key.lookup? k keys = none ∧ isAnnotation k = false ∧
        k.IsTooLong) := by
  unfold entryReport
  rw [validateUnder_eq]
  have hfilter : Option.filter isPresent (some absent) = none := rfl
  by_cases habsent : values = .absent
  · subst habsent
    cases hlookup : Key.lookup? k keys with
    | none => simp [isPresent, not_stops_absent, Problem.IsTooLong, and_assoc]
    | some s =>
        by_cases hs : s = .absent
        · subst hs
          simp [hfilter, isPresent, not_stops_absent]
        · simp [Option.filter, isPresent_iff.mpr hs, hrow s hlookup, not_stops_absent]
  · have hpresent := isPresent_iff.mpr habsent
    cases hlookup : Key.lookup? k keys with
    | none => simp [hpresent, hvalues, habsent]
    | some s =>
        by_cases hs : s = .absent
        · subst hs
          simp [hfilter, hpresent, hvalues, habsent, not_stops_absent]
        · simp [Option.filter, isPresent_iff.mpr hs, hs, hrow s hlookup]

end

mutual

/-- Validation is stopped exactly by what `Stops` lists. -/
theorem isStopped_validate_iff :
    ∀ (s : Schema) (indexed : Bool) (path : List Key) (v : Datum),
      (validate indexed path s v).IsStopped ↔ Stops s v
  | .absent, _, _, _ => by
      apply iff_of_false
      · simp [validate]
      · rintro ⟨⟩
  | .broken, _, _, _ => by
      apply iff_of_false
      · simp [validate]
      · rintro ⟨⟩
  | .any, _, _, _ => by
      apply iff_of_false
      · simp [validate]
      · rintro ⟨⟩
  | .boolean, _, _, _ => by
      apply iff_of_false
      · simp [validate, isStopped_typed_iff]
      · rintro ⟨⟩
  | .symbol, _, _, _ => by
      apply iff_of_false
      · simp [validate, isStopped_typed_iff]
      · rintro ⟨⟩
  | .integer low high, _, path, v => by
      unfold validate
      rw [isStopped_typed_iff, SchemaType.admits_integer_iff]
      constructor
      · rintro ⟨⟨n, rfl⟩, h⟩
        exact .integer (isStopped_limits_iff.mp h)
      · intro h
        cases h with
        | integer h => exact ⟨⟨_, rfl⟩, isStopped_limits_iff.mpr h⟩
  | .number low high, _, path, v => by
      unfold validate
      rw [isStopped_typed_iff, SchemaType.admits_number_iff]
      constructor
      · rintro ⟨⟨n, rfl⟩, h⟩
        exact .number (isStopped_limits_iff.mp h)
      · intro h
        cases h with
        | number h => exact ⟨⟨_, rfl⟩, isStopped_limits_iff.mpr h⟩
  | .string low high pattern, _, path, v => by
      constructor
      · intro h
        unfold validate at h
        rw [isStopped_typed_iff] at h
        rcases h with ⟨-, h⟩
        split at h
        · rcases isStopped_text_iff.mp h with hlength | ⟨p, fault, rfl, hparse⟩
          · exact .length hlength
          · exact .pattern hparse
        · exact absurd h Report.not_isStopped_none
      · intro h
        cases h with
        | length h => exact isStopped_text_iff.mpr (Or.inl h)
        | pattern h => exact isStopped_text_iff.mpr (Or.inr ⟨_, _, rfl, h⟩)
  | .keyword choices, _, path, v => by
      constructor
      · intro h
        unfold validate at h
        rw [isStopped_typed_iff] at h
        rcases h with ⟨-, h⟩
        split at h
        · rw [Report.isStopped_when_iff, Bool.not_eq_true'] at h
          exact .keyword h.1 h.2
        · exact absurd h Report.not_isStopped_none
      · intro h
        cases h with
        | keyword hadmits hlong =>
            refine (Report.isStopped_when_iff _ _ _).mpr ⟨?_, hlong⟩
            rw [hadmits]
            rfl
  | .vector low high every, indexed, path, v => by
      have hevery := isStopped_validate_iff every indexed
      constructor
      · intro h
        unfold validate at h
        rw [isStopped_typed_iff] at h
        rcases h with ⟨-, h⟩
        split at h
        · rcases (isStopped_counted_iff hevery).mp h with h | ⟨d, hd, h⟩
          · exact .items h
          · exact .item hd h
        · exact absurd h Report.not_isStopped_none
      · intro h
        cases h with
        | items h => exact (isStopped_counted_iff hevery).mpr (Or.inl h)
        | item hd h => exact (isStopped_counted_iff hevery).mpr (Or.inr ⟨_, hd, h⟩)
  | .set low high every, _, path, v => by
      have hevery := isStopped_validate_iff every false
      constructor
      · intro h
        unfold validate at h
        rw [isStopped_typed_iff] at h
        rcases h with ⟨-, h⟩
        split at h
        · rcases (isStopped_counted_iff hevery).mp h with h | ⟨d, hd, h⟩
          · exact .members h
          · exact .member hd h
        · exact absurd h Report.not_isStopped_none
      · intro h
        cases h with
        | members h => exact (isStopped_counted_iff hevery).mpr (Or.inl h)
        | member hd h => exact (isStopped_counted_iff hevery).mpr (Or.inr ⟨_, hd, h⟩)
  | .map required keys values closed, indexed, path, v => by
      have hentry (k : Key) (d : Datum) := isStopped_entryReport_iff closed
        (fun s hs => isStopped_row_iff keys k s hs indexed (path ++ [k]) d)
        (isStopped_validate_iff values indexed (path ++ [k]) d)
      have hmap (entries : List (Key × Datum)) :
          (validate indexed path (.map required keys values closed) (.map entries)).IsStopped ↔
            (∃ k ∈ required, k.IsTooLong) ∨ ∃ e ∈ entries,
              (entryReport indexed (path ++ [e.1]) keys values closed e.1 e.2).IsStopped := by
        rw [validate_map, Report.isStopped_andThen_iff, isStopped_requiredKeys_iff,
          Report.isStopped_all_map_iff]
      constructor
      · intro h
        match v with
        | .map entries =>
            rcases (hmap entries).mp h with ⟨k, hk, hlong⟩ | ⟨⟨k, d⟩, hmem, hstopped⟩
            · exact .required hk hlong
            · rcases (hentry k d).mp hstopped with ⟨s, hs, hstops⟩ | ⟨hkeys, hstops⟩ |
                ⟨rfl, rfl, hkeys, hqualified, hlong⟩
              · exact .entry hmem hs hstops
              · exact .value hmem hkeys hstops
              · exact .unknown hmem hkeys hqualified hlong
        | .atom _ | .vector _ | .set _ =>
            unfold validate at h
            rw [isStopped_typed_iff] at h
            exact absurd h.2 Report.not_isStopped_none
      · intro h
        cases h with
        | required hk hlong => exact (hmap _).mpr (Or.inl ⟨_, hk, hlong⟩)
        | entry hmem hs hstops =>
            refine (hmap _).mpr (Or.inr ⟨_, hmem, (hentry _ _).mpr ?_⟩)
            exact Or.inl ⟨_, hs, hstops⟩
        | value hmem hkeys hstops =>
            refine (hmap _).mpr (Or.inr ⟨_, hmem, (hentry _ _).mpr ?_⟩)
            exact Or.inr (Or.inl ⟨hkeys, hstops⟩)
        | unknown hmem hkeys hqualified hlong =>
            refine (hmap _).mpr (Or.inr ⟨_, hmem, (hentry _ _).mpr ?_⟩)
            exact Or.inr (Or.inr ⟨rfl, rfl, hkeys, hqualified, hlong⟩)

theorem isStopped_row_iff :
    ∀ (keys : List (Key × Schema)) (k : Key) (s : Schema), Key.lookup? k keys = some s →
      ∀ (indexed : Bool) (path : List Key) (d : Datum),
        (validate indexed path s d).IsStopped ↔ Stops s d
  | [], _, _, h, _, _, _ => by cases h
  | (k', s') :: keys, k, s, h, indexed, path, d => by
      rw [Key.lookup?_cons] at h
      split at h
      · cases h
        exact isStopped_validate_iff s' indexed path d
      · exact isStopped_row_iff keys k s h indexed path d

end

end Schema

end EdnLint
