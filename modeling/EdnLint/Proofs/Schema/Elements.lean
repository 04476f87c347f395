import EdnLint.Proofs.Document.Keys
import EdnLint.Proofs.Schema.Passing
import EdnLint.Proofs.Schema.Validation
import EdnLint.Store.Loading

/-!
# Elements of sets and of vectors

The elements of a vector are validated as data. Those of a set are keys, and a key that is
read as a datum again is the datum it was made of, but for its maps: they are bags by then,
and read as sets (`Datum.Frozen`).

Schemas go down to their elements only through vectors and sets, so a schema can tell the two
apart only where it asks for a map or for a set and the element has a map
(`Schema.MeetsMap`). Everywhere else both literals are judged alike
(`Schema.validate_elements`).
-/

namespace EdnLint

namespace Report

/-- Both reports say something or neither does, and they end alike. -/
structure Alike (a b : Report) : Prop where
  issues : a.issues = [] ↔ b.issues = []
  fault : a.fault = b.fault

variable {a b c d : Report}

theorem Alike.refl (a : Report) : a.Alike a := ⟨Iff.rfl, rfl⟩

theorem Alike.eq_none_iff (h : a.Alike b) : a = none ↔ b = none := by
  have hnone (r : Report) : r = none ↔ r.issues = [] ∧ r.fault = .none := by
    cases r
    simp [none]
  rw [hnone, hnone, h.issues, h.fault]

theorem Alike.andThen (hab : a.Alike b) (hcd : c.Alike d) :
    (a.andThen c).Alike (b.andThen d) := by
  unfold Report.andThen
  rw [← hab.fault]
  cases hfault : a.fault with
  | some fault => exact hab
  | none =>
      refine ⟨?_, hcd.fault⟩
      rw [List.append_eq_nil_iff, List.append_eq_nil_iff, hab.issues, hcd.issues]

theorem problem_alike (p : Problem) (path path' : List Key) :
    (problem p path).Alike (problem p path') := by
  unfold problem
  split
  · exact ⟨by simp, rfl⟩
  · exact .refl _

theorem wrongType_alike (t u t' u' : Text) (path path' : List Key) :
    (problem (.wrongType t u) path).Alike (problem (.wrongType t' u') path') :=
  ⟨by simp [problem, Problem.message], rfl⟩

theorem when_alike (condition : Bool) (p : Problem) (path path' : List Key) :
    (when condition p path).Alike (when condition p path') := by
  unfold when
  split
  · exact problem_alike p path path'
  · exact .refl _

theorem whenOk_alike (condition : Except Fault Bool) (p : Problem) (path path' : List Key) :
    (whenOk condition p path).Alike (whenOk condition p path') := by
  unfold whenOk
  split
  · exact when_alike _ p path path'
  · exact .refl _

end Report

namespace Datum

/-- The second datum is the first one after it was a key: its maps are sets. -/
inductive Frozen : Datum → Datum → Prop
  | atom (a : Atom) : Frozen (.atom a) (.atom a)
  | vector {xs ys : List Datum} : List.Forall₂ Frozen xs ys → Frozen (.vector xs) (.vector ys)
  | set (items : List Key) : Frozen (.set items) (.set items)
  | map (entries : List (Key × Datum)) (items : List Key) : Frozen (.map entries) (.set items)

theorem frozen_ofKey (k : Key) : (ofKey k).Frozen (ofKey k) := by
  induction k using Key.induction with
  | atom a => exact .atom a
  | tuple items ih =>
      apply Frozen.vector
      rw [ofKeys_eq_map, List.forall₂_same]
      exact List.forall_mem_map.mpr ih
  | bag items => exact .set items

theorem frozen_of_filled {n : Node} (hn : n.Filled) : n.toDatum.Frozen (ofKey n.toKey) := by
  induction hn with
  | scalar a => exact .atom a
  | set => exact .set _
  | map => exact .map _ _
  | sequence hshape _ ih =>
      rw [Node.toDatum_sequence _ _ _ hshape, Node.toKey_sequence _ _ _ hshape]
      apply Frozen.vector
      rw [ofKeys_eq_map, List.map_map, List.forall₂_map_left_iff, List.forall₂_map_right_iff,
        List.forall₂_same]
      exact ih
  | wrapper hshape _ ih =>
      rw [Node.toDatum_wrapper_append _ _ _ hshape, Node.toKey_wrapper_append _ _ _ hshape]
      exact ih

/-- The type of a collection. -/
def collection? : Datum → Option SchemaType
  | .atom _ => none
  | .vector _ => some .vector
  | .set _ => some .set
  | .map _ => some .map

end Datum

theorem SchemaType.not_admits_of_collection {t c : SchemaType} {d : Datum}
    (hd : d.collection? = some c) (hany : t ≠ .any) (ht : t ≠ c) : t.admits d = false := by
  cases d with
  | atom a => cases hd
  | _ =>
      cases hd
      cases t <;> first | rfl | contradiction

open Vocabulary

namespace Schema

open Node

/-- The type that a schema asks for, if it asks for one. -/
def type? : Schema → Option SchemaType
  | .absent | .broken | .any => none
  | .boolean => some .boolean
  | .symbol => some .symbol
  | .integer _ _ => some .integer
  | .number _ _ => some .number
  | .string _ _ _ => some .string
  | .keyword _ => some .keyword
  | .vector _ _ _ => some .vector
  | .set _ _ _ => some .set
  | .map _ _ _ _ => some .map

/-- A schema for elements, or one under it for their items, asks for the type `t` where there
is a map. -/
inductive MeetsMap [Pattern.Engine] (t : SchemaType) : Schema → Datum → Prop
  | here {s : Schema} (entries : List (Key × Datum)) :
      s.type? = some t → MeetsMap t s (.map entries)
  | item {low high : Option Bound} {every : Schema} {items : List Datum} {d : Datum} :
      d ∈ items → MeetsMap t every d → MeetsMap t (.vector low high every) (.vector items)

/-- Induction over schemas along the schemas of their elements. -/
@[elab_as_elim]
theorem elementInduction {P : Schema → Prop}
    (flat : ∀ s : Schema, s.type? ≠ some .vector → s.type? ≠ some .set → P s)
    (vector : ∀ low high every, P every → P (.vector low high every))
    (set : ∀ low high every, P every → P (.set low high every)) : ∀ s, P s
  | .vector low high every => vector low high every (elementInduction flat vector set every)
  | .set low high every => set low high every (elementInduction flat vector set every)
  | .absent | .broken | .any | .boolean | .symbol | .integer _ _ | .number _ _ | .string _ _ _
  | .keyword _ | .map _ _ _ _ => flat _ (by simp [type?]) (by simp [type?])

section

variable {s : Schema} {t : SchemaType} {d e : Datum}

theorem type?_ne_any : s.type? ≠ some .any := by
  cases s <;> simp [type?]

theorem limits_alike (low high : Option Bound) (a : Atom) (p q : List Key) :
    (limits low high p a).Alike (limits low high q a) := by
  cases a with
  | number n =>
      apply Report.Alike.andThen
      · cases low with
        | none => exact .refl _
        | some b => exact Report.whenOk_alike _ _ p q
      · cases high with
        | none => exact .refl _
        | some b => exact Report.whenOk_alike _ _ p q
  | _ => exact .refl _

theorem countLimits_alike (low high : Option Bound) (few many : Atom → Nat → Problem)
    (count : Nat) (p q : List Key) :
    (countLimits low high few many p count).Alike (countLimits low high few many q count) := by
  apply Report.Alike.andThen
  · cases low with
    | none => exact .refl _
    | some b => exact Report.when_alike _ _ p q
  · cases high with
    | none => exact .refl _
    | some b => exact Report.when_alike _ _ p q

theorem typed_alike {r r' : Report} (h : r.Alike r') (p q : List Key) :
    (typed t p d r).Alike (typed t q d r') := by
  unfold typed
  split
  · exact h
  · exact Report.problem_alike _ p q

theorem eachFrom_alike {check check' : List Key → Datum → Report} {xs ys : List Datum}
    (h : List.Forall₂ (fun x y => ∀ p q, (check p x).Alike (check' q y)) xs ys) (i j : Bool)
    (p q : List Key) (m n : Nat) :
    (eachFrom check i p m xs).Alike (eachFrom check' j q n ys) := by
  induction h generalizing m n with
  | nil => exact .refl _
  | cons hxy _ ih => exact (hxy _ _).andThen (ih _ _)

theorem exists_of_eachFrom_eq_none {check : List Key → Datum → Report} {i : Bool}
    {path : List Key} {m : Nat} {items : List Datum} (h : eachFrom check i path m items = .none) :
    ∀ x ∈ items, ∃ p, check p x = .none := by
  induction items generalizing m with
  | nil => simp
  | cons x items ih =>
      rw [eachFrom, Report.andThen_eq_none_iff] at h
      rw [List.forall_mem_cons]
      exact ⟨⟨_, h.1⟩, ih h.2⟩

variable [Pattern.Engine]

theorem validate_of_not_admits (hs : s.type? = some t) (h : t.admits d = false) (indexed : Bool)
    (path : List Key) :
    validate indexed path s d = .problem (.wrongType t.name d.typeName) path := by
  cases s <;> simp_all [type?, validate, typed]

theorem validate_of_untyped (hs : s.type? = none) (indexed : Bool) (path : List Key) :
    validate indexed path s d = .none := by
  cases s <;> simp_all [type?, validate]

/-- Two collections are alike to a schema that asks for neither of them. -/
theorem alike_of_collection {c c' : SchemaType} (hd : d.collection? = some c)
    (he : e.collection? = some c') (hc : s.type? ≠ some c) (hc' : s.type? ≠ some c')
    (i j : Bool) (p q : List Key) : (validate i p s d).Alike (validate j q s e) := by
  cases hs : s.type? with
  | none =>
      rw [validate_of_untyped hs, validate_of_untyped hs]
      exact .refl _
  | some t =>
      rw [hs, ne_eq, Option.some_inj] at hc hc'
      have hany : t ≠ .any := fun h => type?_ne_any (h ▸ hs)
      rw [validate_of_not_admits hs (SchemaType.not_admits_of_collection hd hany hc),
        validate_of_not_admits hs (SchemaType.not_admits_of_collection he hany hc')]
      exact Report.wrongType_alike _ _ _ _ _ _

theorem validate_vector (indexed : Bool) (path : List Key) (low high : Option Bound)
    (every : Schema) (items : List Datum) :
    validate indexed path (.vector low high every) (.vector items) =
      (countLimits low high .tooFewItems .tooManyItems path items.length).andThen
        (eachFrom (fun path d => validate indexed path every d) indexed path 0 items) := rfl

theorem validate_set (indexed : Bool) (path : List Key) (low high : Option Bound)
    (every : Schema) (items : List Key) :
    validate indexed path (.set low high every) (.set items) =
      (countLimits low high .tooFewItems .tooManyItems path items.length).andThen
        (eachFrom (fun path d => validate false path every d) false path 0
          (Datum.ofKeys items)) := rfl

theorem matching_alike (pattern : Option Text) (value : Text) (p q : List Key) :
    (matching pattern p value).Alike (matching pattern q value) := by
  unfold matching
  split
  · exact .refl _
  · split
    · exact Report.when_alike _ _ p q
    · exact .refl _
    · exact .refl _

/-- An atom is judged alike wherever it stands. -/
theorem validate_atom_alike (s : Schema) (a : Atom) (i j : Bool) (p q : List Key) :
    (validate i p s (.atom a)).Alike (validate j q s (.atom a)) := by
  cases s with
  | integer low high => exact typed_alike (limits_alike low high a p q) p q
  | number low high => exact typed_alike (limits_alike low high a p q) p q
  | string low high pattern =>
      apply typed_alike
      cases a with
      | string t => exact (countLimits_alike _ _ _ _ _ p q).andThen (matching_alike _ _ p q)
      | _ => exact .refl _
  | keyword choices =>
      apply typed_alike
      split
      · exact Report.when_alike _ _ p q
      · exact .refl _
  | _ =>
      first
      | exact .refl _
      | exact typed_alike (.refl _) p q

/-- No map is in a key. -/
theorem not_meetsMap_ofKey (k : Key) : ¬ MeetsMap t s (Datum.ofKey k) := by
  intro h
  generalize hd : Datum.ofKey k = d at h
  induction h generalizing k with
  | here entries _ => cases k <;> cases hd
  | item hmem _ ih =>
      cases k with
      | tuple ks =>
          cases hd
          obtain ⟨l, -, hl⟩ := Datum.mem_ofKeys_iff.mp hmem
          exact ih l hl
      | _ => cases hd

/-- A datum and what it is after it was a key are judged alike where no map meets a schema for
maps or for sets. -/
theorem validate_frozen_alike (h : d.Frozen e) (hmap : ¬ MeetsMap .map s d)
    (hset : ¬ MeetsMap .set s d) (i j : Bool) (p q : List Key) :
    (validate i p s d).Alike (validate j q s e) := by
  induction s using elementInduction generalizing d e i j p q with
  | flat s hvector hset' =>
      cases h with
      | atom a => exact validate_atom_alike s a i j p q
      | vector _ => exact alike_of_collection rfl rfl hvector hvector i j p q
      | set _ => exact alike_of_collection rfl rfl hset' hset' i j p q
      | map entries _ =>
          have hmap' : s.type? ≠ some .map := fun hs => hmap (.here entries hs)
          exact alike_of_collection rfl rfl hmap' hset' i j p q
  | vector low high every ih =>
      cases h with
      | atom a => exact validate_atom_alike _ a i j p q
      | @vector xs ys hxy =>
          rw [validate_vector, validate_vector, hxy.length_eq]
          apply (countLimits_alike _ _ _ _ _ p q).andThen
          apply eachFrom_alike
          rw [List.forall₂_iff_get] at hxy ⊢
          refine ⟨hxy.1, fun m hm hn p q => ih (hxy.2 m hm hn) ?_ ?_ i j p q⟩
          · exact fun hmeets => hmap (.item (List.get_mem xs ⟨m, hm⟩) hmeets)
          · exact fun hmeets => hset (.item (List.get_mem xs ⟨m, hm⟩) hmeets)
      | _ => exact alike_of_collection rfl rfl (by simp [type?]) (by simp [type?]) i j p q
  | set low high every ih =>
      cases h with
      | atom a => exact validate_atom_alike _ a i j p q
      | set items =>
          rw [validate_set, validate_set]
          apply (countLimits_alike _ _ _ _ _ p q).andThen
          apply eachFrom_alike
          rw [List.forall₂_same]
          intro d hd p q
          -- members are keys on both sides, so only their paths differ
          obtain ⟨k, -, rfl⟩ := Datum.mem_ofKeys_iff.mp hd
          exact ih (Datum.frozen_ofKey k) (not_meetsMap_ofKey k) (not_meetsMap_ofKey k)
            false false p q
      | map entries _ => exact absurd (.here entries rfl) hset
      | vector _ => exact alike_of_collection rfl rfl (by simp [type?]) (by simp [type?]) i j p q

/-- A map that meets a type is reported, if what stands for it is not of the type. -/
theorem MeetsMap.ne_none {R : Datum → Datum → Prop}
    (hmap : ∀ entries e, R (.map entries) e → t.admits e = false)
    (hvector : ∀ xs e, R (.vector xs) e → ∃ ys, e = .vector ys ∧ ∀ x ∈ xs, ∃ y ∈ ys, R x y)
    (h : MeetsMap t s d) (hR : R d e) (indexed : Bool) (path : List Key) :
    validate indexed path s e ≠ .none := by
  induction h generalizing e path with
  | here entries hs =>
      rw [validate_of_not_admits hs (hmap entries e hR)]
      exact Report.problem_ne_none _ _
  | item hmem _ ih =>
      obtain ⟨ys, rfl, hitems⟩ := hvector _ e hR
      obtain ⟨y, hy, hxy⟩ := hitems _ hmem
      intro hnone
      rw [validate_vector, Report.andThen_eq_none_iff] at hnone
      obtain ⟨p, hp⟩ := exists_of_eachFrom_eq_none hnone.2 y hy
      exact ih hxy p hp

theorem MeetsMap.ne_none_of_set (h : MeetsMap .set s d) (indexed : Bool) (path : List Key) :
    validate indexed path s d ≠ .none := by
  apply MeetsMap.ne_none (R := Eq) _ _ h rfl
  · rintro entries _ rfl
    rfl
  · rintro xs _ rfl
    exact ⟨xs, rfl, fun x hx => ⟨x, hx, rfl⟩⟩

theorem MeetsMap.ne_none_of_frozen (h : MeetsMap .map s d) (hde : d.Frozen e) (indexed : Bool)
    (path : List Key) : validate indexed path s e ≠ .none := by
  apply MeetsMap.ne_none (R := Datum.Frozen) _ _ h hde
  · rintro entries _ ⟨⟩
    rfl
  · intro xs _ hR
    cases hR with
    | vector hxy =>
        refine ⟨_, rfl, fun x hx => ?_⟩
        rw [List.forall₂_iff_get] at hxy
        obtain ⟨⟨m, hm⟩, rfl⟩ := List.mem_iff_get.mp hx
        have hn := hxy.1 ▸ hm
        exact ⟨_, List.get_mem _ ⟨m, hn⟩, hxy.2 m hm hn⟩

end

/-- The schema of a type of collections with a schema for the elements, and no other field. -/
def ofElements (name : Text) (element : Datum) : Schema :=
  ofDatum (.map [(.keyword type, .atom (.symbol name)), (.keyword every, element)])

section

variable [Pattern.Engine] {forms : List Node} (element : Datum) (indexed : Bool) (path : List Key)
  (start stop : Position)

/-- A set of different keys is validated form by form, each read as a key. -/
theorem validate_setLiteral (h : (forms.map toKey).Pairwise fun k l => l.same k = false) :
    validate indexed path (ofElements "zen/set" element) (mk .set start stop forms).toDatum =
      eachFrom (fun path d => validate false path (ofDatum element) d) false path 0
        (forms.map fun n => Datum.ofKey n.toKey) := by
  have hschema : ofElements "zen/set" element = .set none none (ofDatum element) := rfl
  have hdatum : (mk .set start stop forms).toDatum = .set (forms.map toKey) := by
    rw [toDatum, toKeys_eq_map, (Key.distinct_eq_self_iff _).mpr h]
  rw [hschema, hdatum, validate_set, Datum.ofKeys_eq_map, List.map_map]
  exact Report.none_andThen _

/-- A vector is validated form by form, each read as a datum. -/
theorem validate_vectorLiteral :
    validate indexed path (ofElements "zen/vector" element)
        (mk .vector start stop forms).toDatum =
      eachFrom (fun path d => validate indexed path (ofDatum element) d) indexed path 0
        (forms.map toDatum) := by
  have hschema : ofElements "zen/vector" element = .vector none none (ofDatum element) := rfl
  rw [hschema, toDatum_sequence _ _ _ (Or.inl rfl), validate_vector]
  exact Report.none_andThen _

/-- Forms that are different keys are judged alike as the elements of a set and of a vector, if
no map in them meets a schema for maps or for sets. Elements that pass in a vector pass in a
set exactly if no map in them meets a schema for maps, and elements that pass in a set pass in
a vector exactly if no map in them meets a schema for sets. -/
theorem validate_elements (hread : ∀ n ∈ forms, n.IsRead)
    (hkeys : (forms.map toKey).Pairwise fun k l => l.same k = false) :
    let inSet :=
      validate indexed path (ofElements "zen/set" element) (mk .set start stop forms).toDatum
    let inVector :=
      validate indexed path (ofElements "zen/vector" element)
        (mk .vector start stop forms).toDatum
    let Meets (t : SchemaType) : Prop := ∃ n ∈ forms, MeetsMap t (ofDatum element) n.toDatum
    (¬ Meets .map → ¬ Meets .set → inVector.Alike inSet) ∧
      (inVector = .none → (inSet = .none ↔ ¬ Meets .map)) ∧
      (inSet = .none → (inVector = .none ↔ ¬ Meets .set)) := by
  intro inSet inVector Meets
  have hset : inSet = _ := validate_setLiteral element indexed path start stop hkeys
  have hvector : inVector = _ := validate_vectorLiteral element indexed path start stop
  have hfrozen : ∀ n ∈ forms, n.toDatum.Frozen (Datum.ofKey n.toKey) := fun n hn =>
    Datum.frozen_of_filled (hread n hn).filled
  have halike : ¬ Meets .map → ¬ Meets .set → inVector.Alike inSet := by
    intro hmap hset'
    rw [hset, hvector]
    apply eachFrom_alike
    rw [List.forall₂_map_left_iff, List.forall₂_map_right_iff, List.forall₂_same]
    intro n hn p q
    exact validate_frozen_alike (hfrozen n hn) (fun h => hmap ⟨n, hn, h⟩)
      (fun h => hset' ⟨n, hn, h⟩) indexed false p q
  have hmeetsMap : inSet = .none → ¬ Meets .map := by
    rintro hnone ⟨n, hn, hmeets⟩
    rw [hset] at hnone
    obtain ⟨p, hp⟩ := exists_of_eachFrom_eq_none hnone _ (List.mem_map_of_mem hn)
    exact hmeets.ne_none_of_frozen (hfrozen n hn) false p hp
  have hmeetsSet : inVector = .none → ¬ Meets .set := by
    rintro hnone ⟨n, hn, hmeets⟩
    rw [hvector] at hnone
    obtain ⟨p, hp⟩ := exists_of_eachFrom_eq_none hnone _ (List.mem_map_of_mem hn)
    exact hmeets.ne_none_of_set indexed p hp
  refine ⟨halike, fun hnone => ⟨hmeetsMap, ?_⟩, fun hnone => ⟨hmeetsSet, ?_⟩⟩
  · intro hmap
    exact (halike hmap (hmeetsSet hnone)).eq_none_iff.mp hnone
  · intro hset'
    exact (halike (hmeetsMap hnone) hset').eq_none_iff.mpr hnone

end

/-- Of two vectors that should hold integers the second holds a symbol, which is reported in a
vector of both and in a set of both. -/
theorem validate_elements_nested :
    let one : Node := .mk (.scalar (.number (.int 1))) ⟨1, 2, 1⟩ ⟨1, 3, 2⟩ []
    let letter : Node := .mk (.scalar (.symbol "a")) ⟨1, 6, 5⟩ ⟨1, 7, 6⟩ []
    let forms : List Node := [.mk .vector ⟨1, 1, 0⟩ ⟨1, 4, 3⟩ [one],
      .mk .list ⟨1, 5, 4⟩ ⟨1, 8, 7⟩ [letter]]
    let integer : Datum := .map [(.keyword type, .atom (.symbol "zen/integer"))]
    let element : Datum := .map [(.keyword type, .atom (.symbol "zen/vector")),
      (.keyword every, integer)]
    let inSet := validate true [] (ofElements "zen/set" element)
      (mk .set ⟨1, 1, 0⟩ ⟨1, 1, 0⟩ forms).toDatum
    let inVector := validate true [] (ofElements "zen/vector" element)
      (mk .vector ⟨1, 1, 0⟩ ⟨1, 1, 0⟩ forms).toDatum
    parse "[1] (a)" = .ok (.mk .document ⟨1, 1, 0⟩ ⟨1, 8, 7⟩ forms) ∧
      inVector.issues.map Issue.message = [("Expected type of 'integer, got 'symbol" : Text)] ∧
      inSet.issues ≠ [] ∧ inSet.fault = .none := by
  intro one letter forms integer element inSet inVector
  have hp : parse "[1] (a)" = .ok (.mk .document ⟨1, 1, 0⟩ ⟨1, 8, 7⟩ forms) := by decide +kernel
  have hread : ∀ n ∈ forms, n.IsRead := fun n hn => ⟨_, _, hp, .form hn⟩
  have hkeys : (forms.map toKey).Pairwise fun k l => l.same k = false := by decide +kernel
  have hmeets (t : SchemaType) : ¬ ∃ n ∈ forms, MeetsMap t (ofDatum element) n.toDatum := by
    rintro ⟨n, hn, h⟩
    have hdatum : n.toDatum = Datum.ofKey n.toKey := by
      rcases List.mem_pair.mp hn with rfl | rfl <;> rfl
    rw [hdatum] at h
    exact not_meetsMap_ofKey _ h
  have hissues : inVector.issues.map Issue.message =
      [("Expected type of 'integer, got 'symbol" : Text)] := by decide +kernel
  have halike : inVector.Alike inSet :=
    (validate_elements element true [] _ _ hread hkeys).1 (hmeets .map) (hmeets .set)
  refine ⟨hp, hissues, ?_, halike.fault.symm⟩
  intro hnil
  rw [halike.issues.mpr hnil] at hissues
  cases hissues

end Schema

/-- The definition holds an empty map in a set and in a vector, both for maps. The one in the
set is reported for being a set. -/
theorem Store.submit_map_in_set_reported :
    let text : Text := "\x7bns a s \x7b:zen/tags #\x7bzen/schema\x7d :type zen/map" ++
      " :keys \x7b:v \x7b:type zen/set :every \x7b:type zen/map\x7d\x7d" ++
      " :w \x7b:type zen/vector :every \x7b:type zen/map\x7d\x7d\x7d\x7d" ++
      " d \x7b:zen/tags #\x7bs\x7d :v #\x7b\x7b\x7d\x7d :w [\x7b\x7d]\x7d\x7d"
    let t : FileTree := ⟨⟨.single, []⟩, [], []⟩
    let maps (name : Text) : Datum := .map [(.keyword type, .atom (.symbol name)),
      (.keyword every, .map [(.keyword type, .atom (.symbol "zen/map"))])]
    let schema : Datum := .map [(.keyword tags, .set [.symbol "zen/schema"]),
      (.keyword type, .atom (.symbol "zen/map")),
      (.keyword keys, .map [(.keyword "v", maps "zen/set"), (.keyword "w", maps "zen/vector")])]
    let d : Datum := .map [(.symbol "ns", .atom (.symbol "a")), (.symbol "s", schema),
      (.symbol "d", .map [(.keyword tags, .set [.symbol "s"]), (.keyword "v", .set [.bag []]),
        (.keyword "w", .vector [.map []])])]
    readDatum text = .ok d ∧ Shape.check [] schema = .none ∧
      ((Store.empty []).submit t d).store.issues.map (fun i => (i.message, i.path, i.resource)) =
        [(("Expected type of 'map, got 'set" : Text), [Key.keyword "v"],
          some ("a/d" : Text))] := by
  intro text t maps schema d
  exact ⟨by decide +kernel, by rfl, by decide +kernel⟩

end EdnLint
