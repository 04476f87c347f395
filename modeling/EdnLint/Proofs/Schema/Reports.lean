import EdnLint.Proofs.Document.Atoms
import EdnLint.Proofs.Schema.Bounds
import EdnLint.Schema.Shape
import EdnLint.Schema.Validation

/-!
# What a report is made of

All reports come from `Report.problem` by putting reports one after the other.
`Report.Every P` says that `P` holds of each issue, and it passes through all the
ways of combining reports.

A problem has a place in the value that is checked: `Problem.StandsAt` asks that its
path walks the value, and that the names it quotes are in the value. The two recursive
checks extend a path only by steps that the value has, so a fact about single problems
where they stand is a fact about everything the checks report (`Shape.check_every`,
`Schema.validate_every`). In validation the members of a set share the path of the set
(`Schema.Reaches`). They are keys, so no map is among them, and it is only in a map that a
path goes on without an index.
-/

namespace EdnLint

namespace Report

variable {P : Issue → Prop}

/-- Every issue of the report satisfies `P`. -/
def Every (P : Issue → Prop) (r : Report) : Prop := ∀ i ∈ r.issues, P i

theorem every_none : none.Every P := fun _ h => absurd h List.not_mem_nil

theorem every_stopped (fault : Fault) : (stopped fault).Every P :=
  fun _ h => absurd h List.not_mem_nil

theorem Every.andThen {a b : Report} (ha : a.Every P) (hb : b.Every P) :
    (a.andThen b).Every P := by
  unfold Report.andThen
  split
  · exact ha
  · intro i hi
    rcases List.mem_append.mp hi with h | h
    · exact ha i h
    · exact hb i h

theorem every_all {rs : List Report} (h : ∀ r ∈ rs, r.Every P) : (all rs).Every P := by
  induction rs with
  | nil => exact every_none
  | cons r rs ih =>
      rw [List.forall_mem_cons] at h
      rw [all_cons]
      exact h.1.andThen (ih h.2)

theorem every_when {p : Problem} {path : List Key} (h : (problem p path).Every P)
    (condition : Bool) : (when condition p path).Every P := by
  unfold when
  split
  · exact h
  · exact every_none

theorem every_whenOk {p : Problem} {path : List Key} (h : (problem p path).Every P)
    (condition : Except Fault Bool) : (whenOk condition p path).Every P := by
  unfold whenOk
  split
  · exact every_when h _
  · exact every_stopped _

end Report

/-- A problem says what is wrong and where, and nothing else. -/
theorem Report.mem_problem {p : Problem} {path : List Key} {i : Issue}
    (h : i ∈ (problem p path).issues) :
    ∃ message, p.message = .ok message ∧ i = ⟨message, path, .none, .none, .none⟩ := by
  unfold problem at h
  split at h
  · rename_i message hmessage
    exact ⟨message, hmessage, List.mem_singleton.mp h⟩
  · cases h

namespace Problem

open Vocabulary

/-- Whether the problem is that a map has a key. -/
def isUnknownKey : Problem → Bool
  | .unknownKey _ => true
  | _ => false

/-- The word is the name of a type. -/
def IsTypeName (word : Text) : Prop :=
  (∃ d : Datum, d.typeName = word) ∨ ∃ t : SchemaType, t.name = word

/-- The single words that a problem in `root` quotes are what they should be: the names of
types, numbers and truth values, and names that are in `root`. -/
def IsAbout (root : Datum) : Problem → Prop
  | .notNamespace type | .definitionName type | .notDefinition type | .notSchema type
  | .keyNotKeyword type => IsTypeName type
  | .wrongType expected actual => IsTypeName expected ∧ IsTypeName actual
  | .tooSmall bound value | .tooLarge bound value =>
      bound.numeric?.isSome = true ∧ value.numeric?.isSome = true
  | .tooShort bound _ | .tooLong bound _ | .tooFewItems bound _ | .tooManyItems bound _ =>
      bound.numeric?.isSome = true
  | .unresolvedImport name | .unresolvedTag name => root.Holds (.symbol name)
  | .notAmong _ name => root.Holds (.keyword name)
  | _ => True

theorem IsAbout.mono {root root' : Datum} {p : Problem} (h : p.IsAbout root)
    (hroot : ∀ a, root.Holds a → root'.Holds a) : p.IsAbout root' := by
  cases p with
  | unresolvedImport | unresolvedTag | notAmong => exact hroot _ h
  | _ => exact h

/-- Where in the value `root` a problem stands. The path walks to a value, except that
a type that is missing stands where it would be. -/
inductive StandsAt (root : Datum) : Problem → List Key → Prop
  | typeMissing {path : List Key} {entries : List (Key × Datum)} :
      root.Walks path (.map entries) → (Datum.field entries type).isNil = true →
      StandsAt root .typeMissing (path ++ [.keyword type])
  | unknownKey {path : List Key} {entries : List (Key × Datum)} {k : Key} {d : Datum} :
      root.Walks path (.map entries) → (k, d) ∈ entries →
      StandsAt root (.unknownKey k) (path ++ [k])
  | value {p : Problem} {path : List Key} {v : Datum} :
      root.Walks path v → p.isUnknownKey = false → p.IsAbout root → StandsAt root p path

theorem StandsAt.isAbout {root : Datum} {p : Problem} {path : List Key}
    (h : p.StandsAt root path) : p.IsAbout root := by
  cases h with
  | typeMissing _ _ => trivial
  | unknownKey _ _ => trivial
  | value _ _ habout => exact habout

theorem isTypeName_key (k : Key) : IsTypeName k.typeName := by
  refine Or.inl ⟨.ofKey k, ?_⟩
  cases k <;> rfl

end Problem

/-- What is reported of a problem satisfies `P` wherever it stands in the value. -/
def Report.EveryIn (P : Issue → Prop) (root : Datum) : Prop :=
  ∀ p path, p.StandsAt root path → (problem p path).Every P

section

variable {P : Issue → Prop} {root : Datum}

namespace Shape

open Vocabulary

variable {path : List Key} {entries : List (Key × Datum)}

/-- A check of a field that finds nothing wrong with nil is made of a field that is
there. -/
theorem field_every (hw : root.Walks path (.map entries)) (name : Text)
    {check : List Key → Datum → Report} (hnil : ∀ path, check path .nil = .none)
    (hcheck : ∀ path d, root.Walks path d → (check path d).Every P) :
    (check (path ++ [.keyword name]) (Datum.field entries name)).Every P := by
  by_cases hd : Datum.field entries name = .nil
  · rw [hd, hnil]
    exact Report.every_none
  · have hfield := Datum.field?_of_field rfl hd
    exact hcheck _ _ (hw.concat_key (Key.mem_of_lookup?_keyword hfield))

section

variable (hP : Report.EveryIn P root)

include hP

theorem unknownFields_every (hw : root.Walks path (.map entries)) (t : SchemaType) :
    (unknownFields t path entries).Every P := by
  refine Report.every_all (List.forall_mem_map.mpr fun e he => ?_)
  exact Report.every_when (hP _ _ (.unknownKey hw he)) _

theorem requireField_every (path : List Key) (d : Datum) (hw : root.Walks path d) :
    (requireField path d).Every P := by
  unfold requireField
  split
  · exact Report.every_none
  · refine Report.every_when (hP _ _ ?_) _
    exact .value hw rfl trivial
  · exact hP _ _ (.value hw rfl trivial)

theorem regexField_every [Pattern.Engine] (path : List Key) (d : Datum) (hw : root.Walks path d) :
    (regexField path d).Every P := by
  unfold regexField
  split
  · split
    · exact Report.every_none
    · exact hP _ _ (.value hw rfl trivial)
    · exact Report.every_stopped _
  · exact Report.every_none

end

mutual

/-- What holds of every problem where it stands holds of all that the check of a schema
reports. -/
theorem check_every [Pattern.Engine] (hP : Report.EveryIn P root) :
    ∀ (d : Datum) (path : List Key), root.Walks path d → (check path d).Every P
  | .map entries, path, hw => by
      have hnested : ∀ name d, (Key.keyword name, d) ∈ entries →
          root.Walks (path ++ [.keyword name]) d := fun _ _ hmem => hw.concat_key hmem
      simp only [check]
      split
      · rename_i hnil
        exact hP _ _ (.typeMissing hw hnil)
      rename_i htyped
      split
      · have hfield := Datum.field?_of_field (rfl : Datum.field entries type = _)
          (fun h => htyped (h ▸ rfl))
        exact hP _ _ (.value (hnested _ _ (Key.mem_of_lookup?_keyword hfield)) rfl trivial)
      · refine Report.every_all ?_
        simp only [List.forall_mem_cons, List.not_mem_nil, false_implies, implies_true, and_true]
        exact ⟨unknownFields_every hP hw _, checkKeys_every hP entries _ (hnested keys),
          field_every hw require (fun _ => rfl) (requireField_every hP),
          checkField_every hP entries _ _ (hnested values),
          checkField_every hP entries _ _ (hnested every),
          field_every hw regex (fun _ => rfl) (regexField_every hP)⟩
  | .atom _, _, hw => hP _ _ (.value hw rfl (Or.inl ⟨_, rfl⟩))
  | .vector _, _, hw => hP _ _ (.value hw rfl (Or.inl ⟨_, rfl⟩))
  | .set _, _, hw => hP _ _ (.value hw rfl (Or.inl ⟨_, rfl⟩))

theorem checkField_every [Pattern.Engine] (hP : Report.EveryIn P root) :
    ∀ (entries : List (Key × Datum)) (name : Text) (path : List Key),
      (∀ d, (Key.keyword name, d) ∈ entries → root.Walks path d) →
      (checkField name path entries).Every P
  | [], _, _, _ => Report.every_none
  | (k, d) :: entries, name, path, hw => by
      simp only [checkField]
      split
      · rename_i hk
        rw [Key.keyword_same_iff] at hk
        exact check_every hP d path (hw d (hk ▸ List.mem_cons_self))
      · exact checkField_every hP entries name path fun d hd => hw d (List.mem_cons_of_mem _ hd)

theorem checkKeys_every [Pattern.Engine] (hP : Report.EveryIn P root) :
    ∀ (entries : List (Key × Datum)) (path : List Key),
      (∀ d, (Key.keyword keys, d) ∈ entries → root.Walks path d) →
      (checkKeys path entries).Every P
  | [], _, _ => Report.every_none
  | (k, d) :: entries, path, hw => by
      simp only [checkKeys]
      split
      · rename_i hk
        rw [Key.keyword_same_iff] at hk
        exact checkTable_every hP d path (hw d (hk ▸ List.mem_cons_self))
      · exact checkKeys_every hP entries path fun d hd => hw d (List.mem_cons_of_mem _ hd)

theorem checkTable_every [Pattern.Engine] (hP : Report.EveryIn P root) :
    ∀ (d : Datum) (path : List Key), root.Walks path d → (checkTable path d).Every P
  | .map entries, path, hw => checkRows_every hP entries path fun _ _ he => hw.concat_key he
  | .atom a, path, hw => by
      cases a
      case nil => exact Report.every_none
      all_goals exact hP _ path (.value hw rfl trivial)
  | .vector _, _, hw => hP _ _ (.value hw rfl trivial)
  | .set _, _, hw => hP _ _ (.value hw rfl trivial)

theorem checkRows_every [Pattern.Engine] (hP : Report.EveryIn P root) :
    ∀ (entries : List (Key × Datum)) (path : List Key),
      (∀ k d, (k, d) ∈ entries → root.Walks (path ++ [k]) d) →
      (checkRows path entries).Every P
  | [], _, _ => Report.every_none
  | (k, d) :: entries, path, hw => by
      have hhead := hw k d List.mem_cons_self
      simp only [checkRows]
      refine Report.Every.andThen ?_ (checkRows_every hP entries path fun k d hd =>
        hw k d (List.mem_cons_of_mem _ hd))
      split
      · exact check_every hP d _ hhead
      · exact hP _ _ (.value hhead rfl (Problem.isTypeName_key k))

end

end Shape

namespace Schema

variable {path : List Key} {v : Datum}

section

variable (hP : Report.EveryIn P root)

include hP

theorem typed_every (hw : root.Walks path v) {report : Report} (h : report.Every P)
    (t : SchemaType) (value : Datum) : (typed t path value report).Every P := by
  unfold typed
  split
  · exact h
  · exact hP _ _ (.value hw rfl ⟨Or.inr ⟨t, rfl⟩, Or.inl ⟨value, rfl⟩⟩)

theorem limits_every (hw : root.Walks path v) {low high : Option Bound}
    (hbounds : AreNumeric low high) (value : Atom) : (limits low high path value).Every P := by
  unfold limits
  split
  · refine Report.Every.andThen ?_ ?_
    · split
      · refine Report.every_whenOk (hP _ _ ?_) _
        exact .value hw rfl ⟨(hbounds.1 _ rfl).isSome, rfl⟩
      · exact Report.every_none
    · split
      · refine Report.every_whenOk (hP _ _ ?_) _
        exact .value hw rfl ⟨(hbounds.2 _ rfl).isSome, rfl⟩
      · exact Report.every_none
  · exact Report.every_none

theorem countLimits_every {low high : Option Bound} (hbounds : AreNumeric low high)
    {few many : Atom → Nat → Problem}
    (hfew : ∀ b n, b.numeric?.isSome = true → (few b n).StandsAt root path)
    (hmany : ∀ b n, b.numeric?.isSome = true → (many b n).StandsAt root path) (count : Nat) :
    (countLimits low high few many path count).Every P := by
  unfold countLimits
  refine Report.Every.andThen ?_ ?_
  · split
    · exact Report.every_when (hP _ _ (hfew _ _ (hbounds.1 _ rfl).isSome)) _
    · exact Report.every_none
  · split
    · exact Report.every_when (hP _ _ (hmany _ _ (hbounds.2 _ rfl).isSome)) _
    · exact Report.every_none

theorem lengthLimits_every (hw : root.Walks path v) {low high : Option Bound}
    (hbounds : AreNumeric low high) (length : Nat) :
    (countLimits low high .tooShort .tooLong path length).Every P := by
  apply countLimits_every hP hbounds
  · exact fun _ _ hb => .value hw rfl hb
  · exact fun _ _ hb => .value hw rfl hb

theorem itemLimits_every (hw : root.Walks path v) {low high : Option Bound}
    (hbounds : AreNumeric low high) (count : Nat) :
    (countLimits low high .tooFewItems .tooManyItems path count).Every P := by
  apply countLimits_every hP hbounds
  · exact fun _ _ hb => .value hw rfl hb
  · exact fun _ _ hb => .value hw rfl hb

theorem matching_every [Pattern.Engine] (hw : root.Walks path v) (pattern : Option Text)
    (value : Text) : (matching pattern path value).Every P := by
  unfold matching
  split
  · exact Report.every_none
  · split
    · refine Report.every_when (hP _ _ ?_) _
      exact .value hw rfl trivial
    · exact Report.every_none
    · exact Report.every_stopped _

theorem requiredKeys_every (hw : root.Walks path v) (required : List Key)
    (entries : List (Key × Datum)) : (requiredKeys required path entries).Every P := by
  unfold requiredKeys
  split
  · exact Report.every_stopped _
  · refine Report.every_all (List.forall_mem_map.mpr fun e _ => ?_)
    refine Report.every_when (hP _ _ ?_) _
    exact .value hw rfl trivial

end

theorem eachFrom_every {check : List Key → Datum → Report} {indexed : Bool} {i : Nat}
    {items : List Datum}
    (h : ∀ j d, items[j]? = some d → (check (step indexed path (i + j)) d).Every P) :
    (eachFrom check indexed path i items).Every P := by
  induction items generalizing i with
  | nil => exact Report.every_none
  | cons d items ih =>
      refine (h 0 d rfl).andThen (ih fun j d hd => ?_)
      rw [Nat.add_assoc, Nat.add_comm 1 j]
      exact h (j + 1) d hd

/-- What validation comes to on its way down from `root`: the value that the path walks
to, or inside a set a member of it, by the path of the set. -/
inductive Reaches (root : Datum) : Bool → List Key → Datum → Prop
  | walked {path : List Key} {v : Datum} : root.Walks path v → Reaches root true path v
  | member {path : List Key} {v : Datum} (k : Key) :
      root.Walks path v → (∀ a, (Datum.ofKey k).Holds a → root.Holds a) →
      Reaches root false path (.ofKey k)

section

variable {indexed : Bool}

theorem Reaches.exists_walks (h : Reaches root indexed path v) : ∃ w, root.Walks path w := by
  cases h with
  | walked hw => exact ⟨_, hw⟩
  | member _ hw _ => exact ⟨_, hw⟩

theorem Reaches.holds (h : Reaches root indexed path v) {a : Atom} (ha : v.Holds a) :
    root.Holds a := by
  cases h with
  | walked hw => exact hw.holds ha
  | member _ _ hholds => exact hholds a ha

theorem Reaches.key {items : List Key} (h : Reaches root indexed path (.set items)) {k : Key}
    (hk : k ∈ items) : Reaches root false path (.ofKey k) := by
  obtain ⟨w, hw⟩ := h.exists_walks
  exact .member k hw fun a ha => h.holds (.member hk ha)

theorem Reaches.item {items : List Datum} (h : Reaches root indexed path (.vector items)) {i : Nat}
    {d : Datum} (hi : items[i]? = some d) : Reaches root indexed (step indexed path i) d := by
  generalize hv : Datum.vector items = v at h
  cases h with
  | walked hw =>
      subst hv
      exact .walked (hw.concat_index hi)
  | member k hw hholds =>
      cases k with
      | tuple ks =>
          rw [Datum.ofKey, Datum.vector.injEq] at hv
          subst hv
          have hmem := List.mem_of_getElem? hi
          obtain ⟨k, -, rfl⟩ := Datum.mem_ofKeys_iff.mp hmem
          exact .member k hw fun a ha => hholds a (.item hmem ha)
      | _ => cases hv

theorem Reaches.map {entries : List (Key × Datum)} (h : Reaches root indexed path (.map entries)) :
    indexed = true ∧ root.Walks path (.map entries) := by
  generalize hv : Datum.map entries = v at h
  cases h with
  | walked hw => exact ⟨rfl, hv ▸ hw⟩
  | member k _ _ => cases k <;> cases hv

end

mutual

/-- What holds of every problem where it stands holds of all that validation reports. -/
theorem validate_every [Pattern.Engine] (hP : Report.EveryIn P root) :
    ∀ (s : Schema) (indexed : Bool) (path : List Key) (v : Datum), s.IsBounded →
      Reaches root indexed path v → (validate indexed path s v).Every P
  | .absent, _, _, _, _, _ => Report.every_none
  | .broken, _, _, _, _, _ => Report.every_none
  | .any, _, _, _, _, _ => Report.every_none
  | .boolean, _, _, v, _, h => by
      obtain ⟨w, hw⟩ := h.exists_walks
      exact typed_every hP hw Report.every_none _ v
  | .symbol, _, _, v, _, h => by
      obtain ⟨w, hw⟩ := h.exists_walks
      exact typed_every hP hw Report.every_none _ v
  | .integer _ _, _, _, v, hbounds, h => by
      obtain ⟨w, hw⟩ := h.exists_walks
      refine typed_every hP hw ?_ _ v
      split
      · exact limits_every hP hw hbounds _
      · exact Report.every_none
  | .number _ _, _, _, v, hbounds, h => by
      obtain ⟨w, hw⟩ := h.exists_walks
      refine typed_every hP hw ?_ _ v
      split
      · exact limits_every hP hw hbounds _
      · exact Report.every_none
  | .string _ _ pattern, _, _, v, hbounds, h => by
      obtain ⟨w, hw⟩ := h.exists_walks
      refine typed_every hP hw ?_ _ v
      split
      · exact (lengthLimits_every hP hw hbounds _).andThen (matching_every hP hw pattern _)
      · exact Report.every_none
  | .keyword choices, _, _, v, _, h => by
      obtain ⟨w, hw⟩ := h.exists_walks
      refine typed_every hP hw ?_ _ v
      split
      · refine Report.every_when (hP _ _ ?_) _
        exact .value hw rfl (h.holds .atom)
      · exact Report.every_none
  | .vector _ _ every, indexed, path, v, hbounds, h => by
      obtain ⟨w, hw⟩ := h.exists_walks
      refine typed_every hP hw ?_ _ v
      split
      · refine (itemLimits_every hP hw hbounds.1 _).andThen ?_
        refine eachFrom_every fun j d hd => validate_every hP every indexed _ d hbounds.2 ?_
        rw [Nat.zero_add]
        exact h.item hd
      · exact Report.every_none
  | .set _ _ every, _, path, v, hbounds, h => by
      obtain ⟨w, hw⟩ := h.exists_walks
      refine typed_every hP hw ?_ _ v
      split
      · refine (itemLimits_every hP hw hbounds.1 _).andThen ?_
        refine eachFrom_every fun j d hd => validate_every hP every false _ d hbounds.2 ?_
        obtain ⟨k, hk, rfl⟩ := Datum.mem_ofKeys_iff.mp (List.mem_of_getElem? hd)
        exact h.key hk
      · exact Report.every_none
  | .map required keys values closed, indexed, path, v, hbounds, h => by
      obtain ⟨w, hw⟩ := h.exists_walks
      refine typed_every hP hw ?_ _ v
      split
      · rename_i entries
        obtain ⟨rfl, hmap⟩ := h.map
        refine (requiredKeys_every hP hw required _).andThen ?_
        refine Report.every_all (List.forall_mem_map.mpr fun e he => ?_)
        have hentry : Reaches root true (path ++ [e.1]) e.2 := .walked (hmap.concat_key he)
        dsimp only
        split
        · rename_i report hreport
          exact validateUnder_every hP keys true _ e.1 e.2 hbounds.1 hentry report hreport
        · split
          · exact validate_every hP values true _ e.2 hbounds.2 hentry
          · exact Report.every_when (hP _ _ (.unknownKey hmap he)) _
      · exact Report.every_none

theorem validateUnder_every [Pattern.Engine] (hP : Report.EveryIn P root) :
    ∀ (keys : List (Key × Schema)) (indexed : Bool) (path : List Key) (key : Key) (d : Datum),
      AreBounded keys → Reaches root indexed path d → ∀ report : Report,
      validateUnder indexed path key keys d = some report → report.Every P
  | [], _, _, _, _, _, _, _, h => by cases h
  | (k, s) :: keys, indexed, path, key, d, hbounds, hd, report, h => by
      simp only [validateUnder] at h
      split at h
      · split at h
        · cases h
          exact validate_every hP s indexed path d hbounds.1 hd
        · cases h
      · exact validateUnder_every hP keys indexed path key d hbounds.2 hd report h

end

end Schema

end

end EdnLint
