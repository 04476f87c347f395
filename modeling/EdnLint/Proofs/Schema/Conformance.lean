import EdnLint.Proofs.Number.Order
import EdnLint.Proofs.Schema.Passing
import EdnLint.Proofs.Schema.Validation

/-!
# Conforming to a schema

`Schema.Conforms` says what a schema asks of a value, by the data in its fields and
without a report: one rule for each type, numbers being ordered by their quantities.
Validation agrees with it on every schema that the check of schemas passes
(`Schema.validate_decides`), although the check goes down the schema alone and
validation down the schema and the value together.

A report decides a proposition if it says nothing exactly where the proposition
holds (`Report.Decides`). A decimal that is held against a float that is no number
is not before it nor behind it, but asking for their order is a fault; this is the
one way in which the validation of a conforming value can end without an answer.
-/

namespace EdnLint

namespace Report

/-- The report says whether a proposition holds: nothing if it does, and something
if it does not. Only the lack of an order keeps it from saying so where it does. -/
structure Decides (r : Report) (p : Prop) : Prop where
  sound : r.fault = .none → r.issues = [] → p
  complete : p → r.issues = [] ∧ ∀ fault, r.fault = some fault → fault = .unordered

section

variable {p q : Prop} {a b : Report}

theorem decides_none (h : p) : none.Decides p :=
  ⟨fun _ _ => h, fun _ => ⟨rfl, fun _ h => by cases h⟩⟩

theorem decides_problem (h : ¬ p) (problem : Problem) (path : List Key) :
    (Report.problem problem path).Decides p := by
  refine ⟨?_, fun hp => absurd hp h⟩
  unfold Report.problem
  split
  · intro _ hissues
    cases hissues
  · intro hfault
    cases hfault

theorem Decides.andThen (ha : a.Decides p) (hb : b.Decides q) : (a.andThen b).Decides (p ∧ q) := by
  unfold Report.andThen
  split
  · rename_i fault hfault
    refine ⟨fun h => ?_, fun hpq => ha.complete hpq.1⟩
    rw [hfault] at h
    cases h
  · rename_i hfault
    constructor
    · intro hfault' hissues
      rw [List.append_eq_nil_iff] at hissues
      exact ⟨ha.sound hfault hissues.1, hb.sound hfault' hissues.2⟩
    · intro hpq
      refine ⟨?_, (hb.complete hpq.2).2⟩
      rw [(ha.complete hpq.1).1, (hb.complete hpq.2).1]
      rfl

theorem Decides.congr (h : a.Decides p) (hpq : p ↔ q) : a.Decides q :=
  ⟨fun hfault hissues => hpq.mp (h.sound hfault hissues), fun hq => h.complete (hpq.mpr hq)⟩

theorem decides_all {α : Type} {f : α → Report} {p : α → Prop} {items : List α}
    (h : ∀ a ∈ items, (f a).Decides (p a)) : (all (items.map f)).Decides (∀ a ∈ items, p a) := by
  induction items with
  | nil => exact decides_none (by simp)
  | cons a items ih =>
      rw [List.forall_mem_cons] at h
      rw [List.map_cons, all_cons]
      exact (h.1.andThen (ih h.2)).congr List.forall_mem_cons.symm

theorem decides_when {condition : Bool} (h : condition = false ↔ p) (problem : Problem)
    (path : List Key) : (when condition problem path).Decides p := by
  cases condition with
  | false => exact decides_none (h.mp rfl)
  | true => exact decides_problem (fun hp => by simpa using h.mpr hp) problem path

theorem decides_option {α : Type} {f : α → Report} {p : α → Prop} (h : ∀ a, (f a).Decides (p a))
    (o : Option α) : ((o.map f).getD none).Decides (∀ a, o = some a → p a) := by
  cases o with
  | none => exact decides_none (by simp)
  | some a => exact (h a).congr (by simp)

/-- Whether one number is not less than another can be said unless they have no order. -/
theorem decides_whenOk_less (m n : Number) (problem : Problem) (path : List Key) :
    (whenOk (m.less n) problem path).Decides (¬ m.quantity.Less n.quantity) := by
  rw [← Number.compare?_eq_lt_iff]
  unfold Number.less
  split
  · refine decides_when ?_ problem path
    simp
  · refine ⟨fun h => ?_, fun _ => ⟨rfl, ?_⟩⟩
    · cases h
    · rintro fault ⟨⟩
      rfl

end

end Report

open Vocabulary

namespace SchemaType

variable {v : Datum}

theorem admits_boolean_iff : boolean.admits v = true ↔ ∃ b, v = .atom (.bool b) := by
  match v with
  | .atom (.bool b) => exact iff_of_true rfl ⟨b, rfl⟩
  | .atom (.number (.int _)) | .atom (.number (.float _)) | .atom (.number (.ratio _))
  | .atom (.number (.decimal _)) | .atom .nil | .atom (.string _) | .atom (.keyword _)
  | .atom (.symbol _) | .vector _ | .set _ | .map _ =>
      exact iff_of_false Bool.false_ne_true (by simp)

theorem admits_symbol_iff : symbol.admits v = true ↔ ∃ name, v = .atom (.symbol name) := by
  match v with
  | .atom (.symbol name) => exact iff_of_true rfl ⟨name, rfl⟩
  | .atom (.number (.int _)) | .atom (.number (.float _)) | .atom (.number (.ratio _))
  | .atom (.number (.decimal _)) | .atom .nil | .atom (.bool _) | .atom (.string _)
  | .atom (.keyword _) | .vector _ | .set _ | .map _ =>
      exact iff_of_false Bool.false_ne_true (by simp)

theorem admits_string_iff : string.admits v = true ↔ ∃ t, v = .atom (.string t) := by
  match v with
  | .atom (.string t) => exact iff_of_true rfl ⟨t, rfl⟩
  | .atom (.number (.int _)) | .atom (.number (.float _)) | .atom (.number (.ratio _))
  | .atom (.number (.decimal _)) | .atom .nil | .atom (.bool _) | .atom (.symbol _)
  | .atom (.keyword _) | .vector _ | .set _ | .map _ =>
      exact iff_of_false Bool.false_ne_true (by simp)

theorem admits_keyword_iff : keyword.admits v = true ↔ ∃ name, v = .atom (.keyword name) := by
  match v with
  | .atom (.keyword name) => exact iff_of_true rfl ⟨name, rfl⟩
  | .atom (.number (.int _)) | .atom (.number (.float _)) | .atom (.number (.ratio _))
  | .atom (.number (.decimal _)) | .atom .nil | .atom (.bool _) | .atom (.symbol _)
  | .atom (.string _) | .vector _ | .set _ | .map _ =>
      exact iff_of_false Bool.false_ne_true (by simp)

/-- No collection type takes an atom. -/
theorem not_admits_atom {t : SchemaType} (ht : t ∈ [vector, set, map]) (a : Atom) :
    t.admits (.atom a) = false := by
  simp only [List.mem_cons, List.not_mem_nil, or_false] at ht
  rcases ht with rfl | rfl | rfl
  all_goals
    cases a with
    | number n => cases n <;> rfl
    | _ => rfl

theorem admits_vector_iff : vector.admits v = true ↔ ∃ items, v = .vector items := by
  match v with
  | .vector items => exact iff_of_true rfl ⟨items, rfl⟩
  | .set _ | .map _ => exact iff_of_false Bool.false_ne_true (by simp)
  | .atom a => simp [not_admits_atom]

theorem admits_set_iff : set.admits v = true ↔ ∃ items, v = .set items := by
  match v with
  | .set items => exact iff_of_true rfl ⟨items, rfl⟩
  | .vector _ | .map _ => exact iff_of_false Bool.false_ne_true (by simp)
  | .atom a => simp [not_admits_atom]

theorem admits_map_iff : map.admits v = true ↔ ∃ entries, v = .map entries := by
  match v with
  | .map entries => exact iff_of_true rfl ⟨entries, rfl⟩
  | .vector _ | .set _ => exact iff_of_false Bool.false_ne_true (by simp)
  | .atom a => simp [not_admits_atom]

end SchemaType

/-- The number that a datum sets as a limit; a truth value sets one or zero. -/
def Datum.numeric? : Datum → Option Number
  | .atom a => a.numeric?
  | _ => none

namespace Bound

theorem forall_ofDatum?_iff {d : Datum} {P : Number → Prop} :
    (∀ b, ofDatum? d = some b → P b.value) ↔ ∀ m, d.numeric? = some m → P m := by
  cases d with
  | atom a => cases h : a.numeric? <;> simp [ofDatum?, Datum.numeric?, h]
  | _ => simp [ofDatum?, Datum.numeric?]

theorem forall_ofCount?_iff {d : Datum} {P : Number → Prop} :
    (∀ b, ofCount? d = some b → P b.value) ↔
      ∀ m : Int, d.numeric? = some (.int m) → P (.int m) := by
  have hcount : (∀ b, ofCount? d = some b → P b.value) ↔
      ∀ b, ofDatum? d = some b → ∀ m, b.value = .int m → P b.value := by
    simp only [ofCount?, Option.filter_eq_some_iff]
    grind
  rw [hcount, forall_ofDatum?_iff (P := fun n => ∀ m, n = .int m → P n)]
  exact ⟨fun h m hm => h _ hm m rfl, fun h n hn m hm => hm ▸ h m (hm ▸ hn)⟩

end Bound

namespace Schema

/-- A number is not before the first limit and not behind the second. What is no
number is no limit. -/
@[mk_iff] structure Within (low high : Datum) (n : Number) : Prop where
  low : ∀ m, low.numeric? = some m → ¬ n.quantity.Less m.quantity
  high : ∀ m, high.numeric? = some m → ¬ m.quantity.Less n.quantity

/-- A count is within two limits. What is no integer is no limit. -/
@[mk_iff] structure CountWithin (low high : Datum) (count : Nat) : Prop where
  low : ∀ m : Int, low.numeric? = some (.int m) → m ≤ count
  high : ∀ m : Int, high.numeric? = some (.int m) → count ≤ m

/-- A value conforms to a schema. -/
inductive Conforms [Pattern.Engine] : Datum → Datum → Prop
  | any {schema : List (Key × Datum)} {v : Datum} :
      SchemaType.ofDatum? (Datum.field schema type) = some .any → Conforms (.map schema) v
  | boolean {schema : List (Key × Datum)} {b : Bool} :
      SchemaType.ofDatum? (Datum.field schema type) = some .boolean →
      Conforms (.map schema) (.atom (.bool b))
  | symbol {schema : List (Key × Datum)} {name : Text} :
      SchemaType.ofDatum? (Datum.field schema type) = some .symbol →
      Conforms (.map schema) (.atom (.symbol name))
  | integer {schema : List (Key × Datum)} {n : Int} :
      SchemaType.ofDatum? (Datum.field schema type) = some .integer →
      Within (Datum.field schema min) (Datum.field schema max) (.int n) →
      Conforms (.map schema) (.atom (.number (.int n)))
  | number {schema : List (Key × Datum)} {n : Number} :
      SchemaType.ofDatum? (Datum.field schema type) = some .number →
      Within (Datum.field schema min) (Datum.field schema max) n →
      Conforms (.map schema) (.atom (.number n))
  | string {schema : List (Key × Datum)} {t : Text} :
      SchemaType.ofDatum? (Datum.field schema type) = some .string →
      CountWithin (Datum.field schema minLength) (Datum.field schema maxLength) t.length →
      (∀ pattern, Datum.field schema regex = .atom (.string pattern) →
        ∃ isFound, Pattern.Engine.read pattern = .ok isFound ∧ isFound t = true) →
      Conforms (.map schema) (.atom (.string t))
  | keyword {schema : List (Key × Datum)} {name : Text} :
      SchemaType.ofDatum? (Datum.field schema type) = some .keyword →
      (∀ items, Datum.field schema enum = .vector items → .atom (.keyword name) ∈ items) →
      (∀ items, Datum.field schema enum = .set items → .keyword name ∈ items) →
      Conforms (.map schema) (.atom (.keyword name))
  | vector {schema : List (Key × Datum)} {items : List Datum} :
      SchemaType.ofDatum? (Datum.field schema type) = some .vector →
      CountWithin (Datum.field schema minItems) (Datum.field schema maxItems) items.length →
      (∀ s, Datum.field? schema every = some s → ∀ d ∈ items, Conforms s d) →
      Conforms (.map schema) (.vector items)
  | set {schema : List (Key × Datum)} {items : List Key} :
      SchemaType.ofDatum? (Datum.field schema type) = some .set →
      (∀ s, Datum.field? schema every = some s → ∀ k ∈ items, Conforms s (.ofKey k)) →
      Conforms (.map schema) (.set items)
  /-- The required keys are there, and an entry conforms to the schema of its key or,
  without one, to the schema for values. In a closed map without the latter its key
  is then an annotation. -/
  | map {schema entries : List (Key × Datum)} :
      SchemaType.ofDatum? (Datum.field schema type) = some .map →
      (∀ ks, Datum.field schema require = .set ks → ∀ k ∈ ks, ∃ d, (k, d) ∈ entries) →
      (∀ k d s, (k, d) ∈ entries → Key.lookup? k (rowsOf schema) = some s → Conforms s d) →
      (∀ k d s, (k, d) ∈ entries → Key.lookup? k (rowsOf schema) = none →
        Datum.field? schema values = some s → Conforms s d) →
      (Datum.field? schema values = none →
        Datum.field schema validationType ≠ .atom (.keyword "open") →
        ∀ k d, (k, d) ∈ entries → Key.lookup? k (rowsOf schema) = none → isAnnotation k = true) →
      Conforms (.map schema) (.map entries)

section

variable {schema : List (Key × Datum)} {t : SchemaType} {v : Datum} {path : List Key}

/-- What conforms is of the type. -/
theorem Conforms.admits [Pattern.Engine] (h : Conforms (.map schema) v)
    (ht : SchemaType.ofDatum? (Datum.field schema type) = some t) : t.admits v = true := by
  cases h with
  | any ht' => cases ht.symm.trans ht'; rfl
  | boolean ht' => cases ht.symm.trans ht'; rfl
  | symbol ht' => cases ht.symm.trans ht'; rfl
  | integer ht' => cases ht.symm.trans ht'; rfl
  | @number _ n ht' =>
      cases ht.symm.trans ht'
      exact SchemaType.admits_number_iff.mpr ⟨n, rfl⟩
  | string ht' => cases ht.symm.trans ht'; rfl
  | keyword ht' => cases ht.symm.trans ht'; rfl
  | vector ht' => cases ht.symm.trans ht'; rfl
  | set ht' => cases ht.symm.trans ht'; rfl
  | map ht' => cases ht.symm.trans ht'; rfl

/-- A value of another type does not conform, which is reported. -/
theorem typed_decides [Pattern.Engine] {report : Report}
    (ht : SchemaType.ofDatum? (Datum.field schema type) = some t)
    (h : t.admits v = true → report.Decides (Conforms (.map schema) v)) :
    (typed t path v report).Decides (Conforms (.map schema) v) := by
  unfold typed
  split
  · rename_i hadmits
    exact h hadmits
  · rename_i hadmits
    exact Report.decides_problem (fun hconforms => hadmits (hconforms.admits ht)) _ path

theorem limits_decides (low high : Datum) (path : List Key) (n : Number) :
    (limits (Bound.ofDatum? low) (Bound.ofDatum? high) path (.number n)).Decides
      (Within low high n) := by
  have hlow := Report.decides_option (o := Bound.ofDatum? low) fun b =>
    Report.decides_whenOk_less n b.value (.tooSmall b.written (.number n)) path
  have hhigh := Report.decides_option (o := Bound.ofDatum? high) fun b =>
    Report.decides_whenOk_less b.value n (.tooLarge b.written (.number n)) path
  rw [Bound.forall_ofDatum?_iff (P := fun m => ¬ n.quantity.Less m.quantity)] at hlow
  rw [Bound.forall_ofDatum?_iff (P := fun m => ¬ m.quantity.Less n.quantity)] at hhigh
  have hlimits := (hlow.andThen hhigh).congr (within_iff low high n).symm
  revert hlimits
  cases Bound.ofDatum? low <;> cases Bound.ofDatum? high <;> exact id

theorem countLimits_decides (low high : Datum) (few many : Atom → Nat → Problem)
    (path : List Key) (count : Nat) :
    (countLimits (Bound.ofCount? low) (Bound.ofCount? high) few many path count).Decides
      (CountWithin low high count) := by
  have hlow := Report.decides_option (o := Bound.ofCount? low) fun b =>
    Report.decides_when (p := ((Number.int count).compare? b.value == some .lt) = false) Iff.rfl
      (few b.written count) path
  have hhigh := Report.decides_option (o := Bound.ofCount? high) fun b =>
    Report.decides_when (p := ((Number.int count).compare? b.value == some .gt) = false) Iff.rfl
      (many b.written count) path
  rw [Bound.forall_ofCount?_iff
    (P := fun m => ((Number.int count).compare? m == some .lt) = false)] at hlow
  rw [Bound.forall_ofCount?_iff
    (P := fun m => ((Number.int count).compare? m == some .gt) = false)] at hhigh
  simp only [Number.compare?_int, beq_eq_false_iff_ne, ne_eq, Option.some.injEq, compare_lt_iff_lt,
    compare_gt_iff_gt, not_lt] at hlow hhigh
  have hlimits := (hlow.andThen hhigh).congr (countWithin_iff low high count).symm
  revert hlimits
  cases Bound.ofCount? low <;> cases Bound.ofCount? high <;> exact id

theorem matching_decides [Pattern.Engine] {pattern : Text}
    (h : ∃ isFound, Pattern.Engine.read pattern = .ok isFound) (path : List Key) (value : Text) :
    (matching (some pattern) path value).Decides
      (∃ isFound, Pattern.Engine.read pattern = .ok isFound ∧ isFound value = true) := by
  obtain ⟨isFound, hread⟩ := h
  simp only [matching, hread]
  exact Report.decides_when (by simp) _ path

theorem choices?_admits_iff (d : Datum) (name : Text) :
    (∀ choices, choices? d = some choices → choices.admits name = true) ↔
      (∀ items, d = .vector items → Datum.atom (.keyword name) ∈ items) ∧
        ∀ items, d = .set items → Key.keyword name ∈ items := by
  cases d with
  | atom a => simp [choices?]
  | map entries => simp [choices?]
  | vector items =>
      have hadmits : (Choices.vector items).admits name = true ↔
          Datum.atom (.keyword name) ∈ items := by
        simp only [Choices.admits, List.any_eq_true]
        constructor
        · rintro ⟨d, hd, h⟩
          split at h
          · rw [beq_iff_eq] at h
            exact h ▸ hd
          · cases h
        · exact fun h => ⟨_, h, beq_self_eq_true name⟩
      simp [choices?, hadmits]
  | set items => simp [choices?, Choices.admits, Key.isIn_iff, Key.keyword_same_iff]

theorem eachFrom_decides {check : List Key → Datum → Report} {p : Datum → Prop}
    {items : List Datum} (h : ∀ path, ∀ d ∈ items, (check path d).Decides (p d)) (indexed : Bool)
    (path : List Key) (i : Nat) :
    (eachFrom check indexed path i items).Decides (∀ d ∈ items, p d) := by
  induction items generalizing i with
  | nil => exact Report.decides_none (by simp)
  | cons d items ih =>
      rw [eachFrom]
      have hrest := ih (fun path d hd => h path d (List.mem_cons_of_mem _ hd)) (i + 1)
      exact ((h _ d List.mem_cons_self).andThen hrest).congr List.forall_mem_cons.symm

/-- Keywords can be written out. -/
theorem named_eq {ks : List Key} (h : ∀ k ∈ ks, ∃ name, k = .keyword name) :
    ∃ shown, named ks = .ok shown ∧ shown.map (·.2) = ks := by
  induction ks with
  | nil => exact ⟨[], rfl, rfl⟩
  | cons k ks ih =>
      rw [List.forall_mem_cons] at h
      obtain ⟨⟨name, rfl⟩, h⟩ := h
      obtain ⟨shown, hshown, hkeys⟩ := ih h
      refine ⟨(CodePoint.ofChar ':' :: name, .keyword name) :: shown, ?_, by simp [hkeys]⟩
      unfold named at hshown ⊢
      rw [List.mapM_cons, hshown]
      rfl

theorem requiredKeys_decides {ks : List Key} (h : ∀ k ∈ ks, ∃ name, k = .keyword name)
    (path : List Key) (entries : List (Key × Datum)) :
    (requiredKeys ks path entries).Decides (∀ k ∈ ks, ∃ d, (k, d) ∈ entries) := by
  obtain ⟨shown, hshown, hkeys⟩ := named_eq h
  have hthere : ∀ k ∈ ks, ((Key.lookup? k entries).isNone = false ↔ ∃ d, (k, d) ∈ entries) := by
    intro k hk
    obtain ⟨name, rfl⟩ := h k hk
    rw [← Option.not_isSome, Bool.not_eq_false']
    constructor
    · intro hsome
      obtain ⟨d, hd⟩ := Option.isSome_iff_exists.mp hsome
      exact ⟨d, Key.mem_of_lookup?_keyword hd⟩
    · rintro ⟨d, hd⟩
      exact Key.lookup?_isSome_of_mem hd
  have hall : ∀ e ∈ shown.mergeSort fun a b => Text.le a.1 b.1,
      (Report.when (Key.lookup? e.2 entries).isNone (.keyMissing e.2) path).Decides
        (∃ d, (e.2, d) ∈ entries) := by
    intro e he
    have hk : e.2 ∈ ks := hkeys ▸ List.mem_map_of_mem (List.mem_mergeSort.mp he)
    exact Report.decides_when (hthere e.2 hk) _ path
  simp only [requiredKeys, hshown]
  refine (Report.decides_all hall).congr ?_
  rw [← hkeys, List.forall_mem_map]
  simp only [List.mem_mergeSort]

/-- The schema in a field, if it is there, decides what is asked of a value. -/
theorem ofField_decides [Pattern.Engine] {name : Text}
    (h : ∀ s, Datum.field? schema name = some s → ∀ indexed path v,
      (validate indexed path (ofDatum s) v).Decides (Conforms s v))
    (indexed : Bool) (path : List Key) (v : Datum) :
    (validate indexed path (ofField name schema) v).Decides
      (∀ s, Datum.field? schema name = some s → Conforms s v) := by
  rw [ofField_eq]
  cases hs : Datum.field? schema name with
  | none => exact Report.decides_none (by simp)
  | some s => exact (h s hs indexed path v).congr (by simp)

theorem isPresent_ofDatum (schema : List (Key × Datum)) :
    (ofDatum (.map schema)).isPresent = true := by
  rw [ofDatum]
  split <;> rfl

theorem isClosed_eq (h : Datum.field? schema values = none) :
    isClosed schema = true ↔ Datum.field schema validationType ≠ .atom (.keyword "open") := by
  have hnil : (Datum.field schema values).isNil = true := by
    rw [Datum.field, h]
    rfl
  simp only [isClosed, hnil, Bool.and_true, Bool.not_eq_true']
  split
  · rename_i name hname
    simp [hname]
  · rename_i hother
    simpa using hother "open"

theorem entryReport_decides [Pattern.Engine]
    (hrow : ∀ k s, Key.lookup? k (rowsOf schema) = some s → (∃ sub, s = .map sub) ∧
      ∀ indexed path v, (validate indexed path (ofDatum s) v).Decides (Conforms s v))
    (hvalues : ∀ s, Datum.field? schema values = some s → (∃ sub, s = .map sub) ∧
      ∀ indexed path v, (validate indexed path (ofDatum s) v).Decides (Conforms s v))
    (indexed : Bool) (path : List Key) (k : Key) (d : Datum) :
    (entryReport indexed path (tableField schema) (ofField values schema) (isClosed schema) k
        d).Decides
      ((∀ s, Key.lookup? k (rowsOf schema) = some s → Conforms s d) ∧
        (∀ s, Key.lookup? k (rowsOf schema) = none → Datum.field? schema values = some s →
          Conforms s d) ∧
        (Datum.field? schema values = none →
          Datum.field schema validationType ≠ .atom (.keyword "open") →
          Key.lookup? k (rowsOf schema) = none → isAnnotation k = true)) := by
  unfold entryReport
  rw [validateUnder_eq, tableField_eq, lookup?_rows, ofField_eq]
  cases hlookup : Key.lookup? k (rowsOf schema) with
  | some s =>
      obtain ⟨⟨sub, rfl⟩, hdecides⟩ := hrow k s hlookup
      simp only [Option.map_some, Option.filter, isPresent_ofDatum, if_true]
      exact (hdecides indexed path d).congr (by simp)
  | none =>
      cases hfield : Datum.field? schema values with
      | some s =>
          obtain ⟨⟨sub, rfl⟩, hdecides⟩ := hvalues s hfield
          simp only [Option.map_none, Option.filter_none, Option.map_some, Option.getD_some,
            isPresent_ofDatum, if_true]
          exact (hdecides indexed path d).congr (by simp)
      | none =>
          refine Report.decides_when ?_ _ path
          simp [← isClosed_eq hfield]

end

section

variable [Pattern.Engine] {place : List Key} {schema : List (Key × Datum)}

theorem string_decides (hp : Shape.Passes place schema .string) (indexed : Bool) (path : List Key)
    (v : Datum) :
    (validate indexed path (ofDatum (.map schema)) v).Decides (Conforms (.map schema) v) := by
  have ht := hp.type
  rw [ofDatum, ht]
  refine typed_decides ht fun hadmits => ?_
  obtain ⟨t, rfl⟩ := SchemaType.admits_string_iff.mp hadmits
  have hmatching : (matching (Datum.field schema regex).string? path t).Decides
      (∀ pattern, Datum.field schema regex = .atom (.string pattern) →
        ∃ isFound, Pattern.Engine.read pattern = .ok isFound ∧ isFound t = true) := by
    unfold Datum.string?
    split
    · rename_i pattern hpattern
      exact (matching_decides (hp.pattern pattern hpattern) path t).congr (by simp [hpattern])
    · rename_i hother
      exact Report.decides_none fun pattern hpattern => absurd hpattern (hother pattern)
  refine ((countLimits_decides _ _ _ _ path _).andThen hmatching).congr ⟨?_, fun hc => ?_⟩
  · rintro ⟨hcount, hfound⟩
    exact .string ht hcount hfound
  · cases hc with
    | string _ hcount hfound => exact ⟨hcount, hfound⟩
    | any ht' => cases ht.symm.trans ht'

theorem keyword_decides (hp : Shape.Passes place schema .keyword) (indexed : Bool)
    (path : List Key) (v : Datum) :
    (validate indexed path (ofDatum (.map schema)) v).Decides (Conforms (.map schema) v) := by
  have ht := hp.type
  rw [ofDatum, ht]
  refine typed_decides ht fun hadmits => ?_
  obtain ⟨name, rfl⟩ := SchemaType.admits_keyword_iff.mp hadmits
  have hadmitted : ∀ choices : Choices,
      (Report.when (!choices.admits name) (.notAmong choices name) path).Decides
        (choices.admits name = true) :=
    fun choices => Report.decides_when (by simp) _ path
  have hconforms : (∀ choices, choices? (Datum.field schema enum) = some choices →
      choices.admits name = true) ↔ Conforms (.map schema) (.atom (.keyword name)) := by
    rw [choices?_admits_iff]
    constructor
    · rintro ⟨hvector, hset⟩
      exact .keyword ht hvector hset
    · intro hc
      cases hc with
      | keyword _ hvector hset => exact ⟨hvector, hset⟩
      | any ht' => cases ht.symm.trans ht'
  have hdecides := (Report.decides_option hadmitted _).congr hconforms
  revert hdecides
  cases choices? (Datum.field schema enum) <;> exact id

theorem vector_decides (hp : Shape.Passes place schema .vector)
    (hevery : ∀ s, Datum.field? schema every = some s → ∀ indexed path v,
      (validate indexed path (ofDatum s) v).Decides (Conforms s v))
    (indexed : Bool) (path : List Key) (v : Datum) :
    (validate indexed path (ofDatum (.map schema)) v).Decides (Conforms (.map schema) v) := by
  have ht := hp.type
  rw [ofDatum, ht]
  refine typed_decides ht fun hadmits => ?_
  obtain ⟨items, rfl⟩ := SchemaType.admits_vector_iff.mp hadmits
  have hitems : (eachFrom (fun path d => validate indexed path (ofField every schema) d) indexed
      path 0 items).Decides (∀ d ∈ items, ∀ s, Datum.field? schema every = some s → Conforms s d) :=
    eachFrom_decides (fun path d _ => ofField_decides hevery indexed path d) indexed path 0
  refine ((countLimits_decides _ _ _ _ path _).andThen hitems).congr ⟨?_, fun hc => ?_⟩
  · rintro ⟨hcount, hconforms⟩
    exact .vector ht hcount fun s hs d hd => hconforms d hd s hs
  · cases hc with
    | vector _ hcount hconforms => exact ⟨hcount, fun d hd s hs => hconforms s hs d hd⟩
    | any ht' => cases ht.symm.trans ht'

/-- The count of a set is held against limits that no schema of a set has. -/
theorem set_decides (hp : Shape.Passes place schema .set)
    (hevery : ∀ s, Datum.field? schema every = some s → ∀ indexed path v,
      (validate indexed path (ofDatum s) v).Decides (Conforms s v))
    (indexed : Bool) (path : List Key) (v : Datum) :
    (validate indexed path (ofDatum (.map schema)) v).Decides (Conforms (.map schema) v) := by
  have ht := hp.type
  rw [ofDatum, ht]
  refine typed_decides ht fun hadmits => ?_
  obtain ⟨items, rfl⟩ := SchemaType.admits_set_iff.mp hadmits
  have hmin : Datum.field schema minItems = .nil := by
    rw [Datum.field, hp.field?_eq_none (by decide) (by decide)]
    rfl
  have hmax : Datum.field schema maxItems = .nil := by
    rw [Datum.field, hp.field?_eq_none (by decide) (by decide)]
    rfl
  have hcount : CountWithin (Datum.field schema minItems) (Datum.field schema maxItems)
      items.length := by
    rw [hmin, hmax]
    constructor <;> rintro m ⟨⟩
  have hitems : (eachFrom (fun path d => validate false path (ofField every schema) d) false
      path 0 (Datum.ofKeys items)).Decides
        (∀ d ∈ Datum.ofKeys items, ∀ s, Datum.field? schema every = some s → Conforms s d) :=
    eachFrom_decides (fun path d _ => ofField_decides hevery false path d) false path 0
  refine ((countLimits_decides _ _ _ _ path _).andThen hitems).congr ?_
  rw [Datum.ofKeys_eq_map, List.forall_mem_map, and_iff_right hcount]
  constructor
  · exact fun hconforms => .set ht fun s hs k hk => hconforms k hk s hs
  · intro hc
    cases hc with
    | set _ hconforms => exact fun k hk s hs => hconforms s hs k hk
    | any ht' => cases ht.symm.trans ht'

theorem map_decides (hp : Shape.Passes place schema .map)
    (hrow : ∀ k s, Key.lookup? k (rowsOf schema) = some s → (∃ sub, s = .map sub) ∧
      ∀ indexed path v, (validate indexed path (ofDatum s) v).Decides (Conforms s v))
    (hvalues : ∀ s, Datum.field? schema values = some s → (∃ sub, s = .map sub) ∧
      ∀ indexed path v, (validate indexed path (ofDatum s) v).Decides (Conforms s v))
    (indexed : Bool) (path : List Key) (v : Datum) :
    (validate indexed path (ofDatum (.map schema)) v).Decides (Conforms (.map schema) v) := by
  have ht := hp.type
  rw [ofDatum, ht]
  refine typed_decides ht fun hadmits => ?_
  obtain ⟨entries, rfl⟩ := SchemaType.admits_map_iff.mp hadmits
  have hrequired : (requiredKeys (required (Datum.field schema require)) path entries).Decides
      (∀ ks, Datum.field schema require = .set ks → ∀ k ∈ ks, ∃ d, (k, d) ∈ entries) := by
    unfold required
    split
    · rename_i ks hks
      exact (requiredKeys_decides (hp.required ks hks) path entries).congr (by simp [hks])
    · rename_i hother
      exact (requiredKeys_decides (by simp) path entries).congr
        ⟨fun _ ks hks => (hother ks hks).elim, fun _ => by simp⟩
  have hentry := fun e : Key × Datum =>
    entryReport_decides hrow hvalues indexed (path ++ [e.1]) e.1 e.2
  refine (hrequired.andThen (Report.decides_all fun e _ => hentry e)).congr ⟨?_, fun hc => ?_⟩
  · rintro ⟨hkeys, hall⟩
    refine .map ht hkeys ?_ ?_ ?_
    · exact fun k d s hmem hs => (hall _ hmem).1 s hs
    · exact fun k d s hmem hnone hs => (hall _ hmem).2.1 s hnone hs
    · exact fun hnone hopen k d hmem hlookup => (hall _ hmem).2.2 hnone hopen hlookup
  · cases hc with
    | map _ hkeys hrows hvals hknown =>
        refine ⟨hkeys, fun e he => ⟨?_, ?_, ?_⟩⟩
        · exact fun s hs => hrows e.1 e.2 s he hs
        · exact fun s hnone hs => hvals e.1 e.2 s he hnone hs
        · exact fun hnone hopen hlookup => hknown hnone hopen e.1 e.2 he hlookup
    | any ht' => cases ht.symm.trans ht'

end

theorem sizeOf_lt_of_lookup? {k : Key} {entries : List (Key × Datum)} {d : Datum}
    (h : Key.lookup? k entries = some d) : sizeOf d < sizeOf (Datum.map entries) := by
  obtain ⟨l, -, hmem⟩ := Key.mem_of_lookup? h
  have hlt := List.sizeOf_lt_of_mem hmem
  simp only [Prod.mk.sizeOf_spec, Datum.map.sizeOf_spec] at hlt ⊢
  omega

theorem exists_row {k : Key} {schema : List (Key × Datum)} {s : Datum}
    (h : Key.lookup? k (rowsOf schema) = some s) :
    ∃ rows, Datum.field schema keys = .map rows ∧ Key.lookup? k rows = some s := by
  unfold rowsOf at h
  split at h
  · rename_i rows hrows
    exact ⟨rows, hrows, h⟩
  · cases h

theorem sizeOf_lt_of_row {k : Key} {schema : List (Key × Datum)} {s : Datum}
    (h : Key.lookup? k (rowsOf schema) = some s) : sizeOf s < sizeOf (Datum.map schema) := by
  obtain ⟨rows, hrows, hs⟩ := exists_row h
  have hfield := Datum.field?_of_field hrows (by simp [Datum.nil])
  exact (sizeOf_lt_of_lookup? hs).trans (sizeOf_lt_of_lookup? hfield)

theorem check_of_row [Pattern.Engine] {place : List Key} {schema : List (Key × Datum)}
    {t : SchemaType} {k : Key} {s : Datum} (hp : Shape.Passes place schema t)
    (h : Key.lookup? k (rowsOf schema) = some s) :
    ∃ place, Shape.check place s = .none := by
  obtain ⟨rows, hrows, hs⟩ := exists_row h
  obtain ⟨l, -, hmem⟩ := Key.mem_of_lookup? hs
  exact ⟨_, (hp.row rows hrows _ hmem).2⟩

/-- Validation decides conformance to every schema that passes. The induction is on
the size of the schema, whose parts are reached through its fields. -/
theorem validate_decides [Pattern.Engine] (schema : Datum) {place : List Key}
    (h : Shape.check place schema = .none) (indexed : Bool) (path : List Key) (v : Datum) :
    (validate indexed path (ofDatum schema) v).Decides (Conforms schema v) := by
  induction hn : sizeOf schema using Nat.strong_induction_on
    generalizing schema place indexed path v with
  | _ n ih =>
      subst hn
      obtain ⟨schema, rfl⟩ := Shape.exists_map_of_check h
      obtain ⟨t, hp⟩ := Shape.passes_of_check h
      have ht := hp.type
      have hnested : ∀ (s : Datum) (place : List Key), sizeOf s < sizeOf (Datum.map schema) →
          Shape.check place s = .none → (∃ sub, s = .map sub) ∧
            ∀ indexed path v, (validate indexed path (ofDatum s) v).Decides (Conforms s v) :=
        fun s place hlt hs => ⟨Shape.exists_map_of_check hs,
          fun indexed path v => ih _ hlt s hs indexed path v rfl⟩
      have hevery := fun s hs => (hnested s _ (sizeOf_lt_of_lookup? hs) (hp.every s hs)).2
      cases t with
      | any =>
          rw [ofDatum, ht]
          exact Report.decides_none (.any ht)
      | boolean =>
          rw [ofDatum, ht]
          refine typed_decides ht fun hadmits => ?_
          obtain ⟨b, rfl⟩ := SchemaType.admits_boolean_iff.mp hadmits
          exact Report.decides_none (.boolean ht)
      | symbol =>
          rw [ofDatum, ht]
          refine typed_decides ht fun hadmits => ?_
          obtain ⟨name, rfl⟩ := SchemaType.admits_symbol_iff.mp hadmits
          exact Report.decides_none (.symbol ht)
      | integer =>
          rw [ofDatum, ht]
          refine typed_decides ht fun hadmits => ?_
          obtain ⟨n, rfl⟩ := SchemaType.admits_integer_iff.mp hadmits
          refine (limits_decides _ _ path _).congr ⟨.integer ht, fun hc => ?_⟩
          cases hc with
          | integer _ hwithin => exact hwithin
          | any ht' => cases ht.symm.trans ht'
          | number ht' => cases ht.symm.trans ht'
      | number =>
          rw [ofDatum, ht]
          refine typed_decides ht fun hadmits => ?_
          obtain ⟨n, rfl⟩ := SchemaType.admits_number_iff.mp hadmits
          refine (limits_decides _ _ path _).congr ⟨.number ht, fun hc => ?_⟩
          cases hc with
          | number _ hwithin => exact hwithin
          | any ht' => cases ht.symm.trans ht'
          | integer ht' => cases ht.symm.trans ht'
      | string => exact string_decides hp indexed path v
      | keyword => exact keyword_decides hp indexed path v
      | vector => exact vector_decides hp hevery indexed path v
      | set => exact set_decides hp hevery indexed path v
      | map =>
          refine map_decides hp (fun k s hs => ?_) (fun s hs => ?_) indexed path v
          · obtain ⟨place, hplace⟩ := check_of_row hp hs
            exact hnested s place (sizeOf_lt_of_row hs) hplace
          · exact hnested s _ (sizeOf_lt_of_lookup? hs) (hp.values s hs)

/-- Validation is sound and complete for schemas that pass the check of schemas. If it
comes to an end, it reports nothing exactly on the values that conform. A value that
conforms has nothing reported on it in any case, and validation comes to an end unless
a decimal is ordered against the float that is no number. -/
theorem validate_issues_iff_conforms [Pattern.Engine] {schema : Datum} {place : List Key}
    (h : Shape.check place schema = .none) (indexed : Bool) (path : List Key) (v : Datum) :
    ((validate indexed path (ofDatum schema) v).fault = none →
      ((validate indexed path (ofDatum schema) v).issues = [] ↔ Conforms schema v)) ∧
    (Conforms schema v →
      (validate indexed path (ofDatum schema) v).issues = [] ∧
        ((validate indexed path (ofDatum schema) v).fault = none ∨
          (validate indexed path (ofDatum schema) v).fault = some .unordered)) := by
  have hdecides := validate_decides schema h indexed path v
  refine ⟨fun hfault => ⟨hdecides.sound hfault, fun hc => (hdecides.complete hc).1⟩, fun hc => ?_⟩
  obtain ⟨hissues, hfault⟩ := hdecides.complete hc
  refine ⟨hissues, ?_⟩
  cases hstop : (validate indexed path (ofDatum schema) v).fault with
  | none => exact Or.inl rfl
  | some fault => exact Or.inr (congrArg some (hfault fault hstop))

/-- A number above a ratio, a vector of choices and a string with a pattern, under keys of
a closed map: a value that conforms, and three that do not, by a required key, by a choice
and by the pattern. -/
theorem validate_issues_iff_conforms_nested :
    let limit : Datum := .map [(.keyword type, .atom (.symbol "zen/number")),
      (.keyword min, .atom (.number (.ratio (1 / 2))))]
    let choice : Datum := .map [(.keyword type, .atom (.symbol "zen/keyword")),
      (.keyword enum, .vector [.atom (.keyword "a"), .atom (.keyword "b")])]
    let list : Datum := .map [(.keyword type, .atom (.symbol "zen/vector")),
      (.keyword every, choice), (.keyword maxItems, .atom (.bool true))]
    let word : Datum := .map [(.keyword type, .atom (.symbol "zen/string")),
      (.keyword regex, .atom (.string "^x+$"))]
    let schema : Datum := .map [(.keyword type, .atom (.symbol "zen/map")),
      (.keyword require, .set [.keyword "n"]),
      (.keyword keys, .map [(.keyword "n", limit), (.keyword "l", list), (.keyword "w", word)])]
    let value (n choice word : Text) : Datum :=
      .map [(.keyword tags, .set [.symbol "s"]), (.keyword n, .atom (.number (.int 1))),
        (.keyword "l", .vector [.atom (.keyword choice)]), (.keyword "w", .atom (.string word))]
    Shape.check [] schema = .none ∧ Conforms schema (value "n" "b" "xx") ∧
      ¬ Conforms schema (value "zen/n" "b" "xx") ∧ ¬ Conforms schema (value "n" "c" "xx") ∧
      ¬ Conforms schema (value "n" "b" "xy") := by
  intro limit choice list word schema value
  have hcheck : Shape.check [] schema = .none := by rfl
  have hiff := fun v => (validate_issues_iff_conforms hcheck true [] v).1
  refine ⟨hcheck, ?_, ?_, ?_, ?_⟩
  · exact (hiff _ (by decide +kernel)).mp (by decide +kernel)
  · exact fun hc => absurd ((hiff _ (by decide +kernel)).mpr hc) (by decide +kernel)
  · exact fun hc => absurd ((hiff _ (by decide +kernel)).mpr hc) (by decide +kernel)
  · exact fun hc => absurd ((hiff _ (by decide +kernel)).mpr hc) (by decide +kernel)

end Schema

end EdnLint
