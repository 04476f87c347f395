import EdnLint.Proofs.Datum.Same

/-!
# Equal data

Data are equal by value: items place by place, members of a set in any order, and the
entries of a map by looking each key up in the other map. `Datum.freeze` makes a key of a
datum, in which a map is the bag of its entries. Equal data have the same key, but the key
of a map may also be the key of a set, as a bag does not tell which of the two it was.

That is all that is lost: data whose keys are the same are equal unless a map and a set
stand at one place of them (`Datum.same_iff_freeze`).
-/

namespace EdnLint

namespace Key

/-- In a map without repeated keys an entry is found under every key that is the same. -/
theorem lookup?_of_mem {α : Type} {k l : Key} {entries : List (Key × α)} {a : α}
    (hk : k.WellFormed) (hpairwise : entries.Pairwise fun e f => f.1.same e.1 = false)
    (hmem : (l, a) ∈ entries) (hkl : k.same l = true) : lookup? k entries = some a := by
  induction entries with
  | nil => cases hmem
  | cons e entries ih =>
      obtain ⟨m, b⟩ := e
      rw [List.pairwise_cons] at hpairwise
      rw [lookup?_cons]
      rcases List.mem_cons.mp hmem with heq | hmem
      · cases heq
        rw [if_pos hkl]
      · have hkm : ¬ k.same m = true := by
          intro hkm
          have hlm := same_trans (same_symm hk hkl) hkm
          rw [hpairwise.1 _ hmem] at hlm
          cases hlm
        rw [if_neg hkm]
        exact ih hpairwise.2 hmem

theorem same_pair_iff (k l m n : Key) :
    (tuple [k, l]).same (tuple [m, n]) = true ↔ k.same m = true ∧ l.same n = true := by
  simp [same_tuple_iff]

end Key

namespace Datum

/-- Induction over data: a vector may use the statement for its items, and a map for its
values. -/
@[elab_as_elim]
theorem induction {P : Datum → Prop} (atom : ∀ a, P (.atom a))
    (vector : ∀ items, (∀ d ∈ items, P d) → P (.vector items))
    (set : ∀ items, P (.set items))
    (map : ∀ entries, (∀ e ∈ entries, P e.2) → P (.map entries)) (d : Datum) : P d :=
  @Datum.rec P (fun items => ∀ d ∈ items, P d) (fun entries => ∀ e ∈ entries, P e.2)
    (fun e => P e.2) atom vector set map
    (fun _ h => absurd h List.not_mem_nil)
    (fun _ _ hd hds _ h => (List.mem_cons.mp h).elim (fun e => e ▸ hd) (hds _))
    (fun _ h => absurd h List.not_mem_nil)
    (fun _ _ he hes _ h => (List.mem_cons.mp h).elim (fun e => e ▸ he) (hes _))
    (fun _ _ hd => hd) d

mutual

/-- Whether two data are equal, the float that is not a number being equal to itself. -/
def same : Datum → Datum → Bool
  | .atom a, .atom b => a.same b
  | .vector xs, .vector ys => sameAll xs ys
  | .set xs, .set ys => (Key.bag xs).same (.bag ys)
  | .map xs, .map ys => xs.length == ys.length && foundIn ys xs
  | _, _ => false

/-- Whether two sequences of data are equal place by place. -/
def sameAll : List Datum → List Datum → Bool
  | [], [] => true
  | x :: xs, y :: ys => same x y && sameAll xs ys
  | _, _ => false

/-- Whether `ys` has equal data under the keys of all entries of the list. -/
def foundIn (ys : List (Key × Datum)) : List (Key × Datum) → Bool
  | [] => true
  | (k, x) :: xs => ((Key.lookup? k ys).any fun y => same x y) && foundIn ys xs

end

/-- Whether the datum is the bare float that is not a number. -/
def isNaN : Datum → Bool
  | .atom a => a.isNaN
  | _ => false

/-- Equality of data as a test sees it. -/
def equal (d e : Datum) : Bool := d.same e && !d.isNaN

mutual

/-- The datum as a key. -/
def freeze : Datum → Key
  | .atom a => .atom a
  | .vector items => .tuple (freezeAll items)
  | .set items => .bag items
  | .map entries => .bag (freezeEntries entries)

def freezeAll : List Datum → List Key
  | [] => []
  | d :: ds => freeze d :: freezeAll ds

def freezeEntries : List (Key × Datum) → List Key
  | [] => []
  | (k, d) :: entries => .tuple [k, freeze d] :: freezeEntries entries

end

theorem sameAll_iff (xs ys : List Datum) :
    sameAll xs ys = true ↔ List.Forall₂ (fun x y => x.same y = true) xs ys := by
  induction xs generalizing ys with
  | nil => cases ys <;> simp [sameAll]
  | cons x xs ih => cases ys <;> simp [sameAll, ih]

theorem foundIn_iff (ys xs : List (Key × Datum)) :
    foundIn ys xs = true ↔
      ∀ e ∈ xs, ∃ y, Key.lookup? e.1 ys = some y ∧ e.2.same y = true := by
  induction xs with
  | nil => simp [foundIn]
  | cons e xs ih =>
      obtain ⟨k, x⟩ := e
      simp [foundIn, ih, Option.any_eq_true]

theorem same_vector_iff (xs ys : List Datum) :
    (vector xs).same (vector ys) = true ↔ List.Forall₂ (fun x y => x.same y = true) xs ys := by
  rw [same, sameAll_iff]

theorem same_map_iff (xs ys : List (Key × Datum)) :
    (map xs).same (map ys) = true ↔ xs.length = ys.length ∧
      ∀ e ∈ xs, ∃ y, Key.lookup? e.1 ys = some y ∧ e.2.same y = true := by
  rw [same, Bool.and_eq_true, beq_iff_eq, foundIn_iff]

theorem freeze_vector (items : List Datum) :
    (vector items).freeze = .tuple (items.map freeze) := by
  have hall : freezeAll items = items.map freeze := by
    induction items with
    | nil => rfl
    | cons d ds ih => rw [freezeAll, ih, List.map_cons]
  rw [freeze, hall]

theorem freeze_map (entries : List (Key × Datum)) :
    (map entries).freeze = .bag (entries.map fun e => .tuple [e.1, e.2.freeze]) := by
  have hentries : freezeEntries entries = entries.map fun e => .tuple [e.1, e.2.freeze] := by
    induction entries with
    | nil => rfl
    | cons e entries ih => rw [freezeEntries, ih, List.map_cons]
  rw [freeze, hentries]

/-- No set holds a member twice and no map has a key twice. -/
inductive WellFormed : Datum → Prop
  | atom (a : Atom) : WellFormed (.atom a)
  | vector {items : List Datum} : (∀ d ∈ items, WellFormed d) → WellFormed (.vector items)
  | set {items : List Key} : (Key.bag items).WellFormed → WellFormed (.set items)
  | map {entries : List (Key × Datum)} : (∀ e ∈ entries, e.1.WellFormed) →
      entries.Pairwise (fun e f => f.1.same e.1 = false) → (∀ e ∈ entries, WellFormed e.2) →
      WellFormed (.map entries)

theorem wellFormed_vector_iff (items : List Datum) :
    (vector items).WellFormed ↔ ∀ d ∈ items, d.WellFormed := by
  constructor
  · rintro ⟨⟩
    assumption
  · exact .vector

theorem wellFormed_map_iff (entries : List (Key × Datum)) :
    (map entries).WellFormed ↔ (∀ e ∈ entries, e.1.WellFormed) ∧
      entries.Pairwise (fun e f => f.1.same e.1 = false) ∧ ∀ e ∈ entries, e.2.WellFormed := by
  constructor
  · rintro ⟨⟩
    exact ⟨by assumption, by assumption, by assumption⟩
  · rintro ⟨hkeys, hpairwise, hvalues⟩
    exact .map hkeys hpairwise hvalues

/-- One of two data has a map where the other has a set. -/
inductive Confused : Datum → Datum → Prop
  | mapSet (entries : List (Key × Datum)) (items : List Key) :
      Confused (.map entries) (.set items)
  | setMap (items : List Key) (entries : List (Key × Datum)) :
      Confused (.set items) (.map entries)
  | item {xs ys : List Datum} {i : Nat} {x y : Datum} :
      xs[i]? = some x → ys[i]? = some y → Confused x y → Confused (.vector xs) (.vector ys)
  | value {xs ys : List (Key × Datum)} {k l : Key} {x y : Datum} :
      (k, x) ∈ xs → (l, y) ∈ ys → k.same l = true → Confused x y → Confused (.map xs) (.map ys)

/-- Equal data have the same key. -/
theorem freeze_same_of_same {d e : Datum} (h : d.same e = true) :
    d.freeze.same e.freeze = true := by
  induction d using Datum.induction generalizing e with
  | atom a => cases e <;> simp_all [same, freeze, Key.same]
  | vector xs ih =>
      cases e with
      | vector ys =>
          rw [same_vector_iff] at h
          rw [freeze_vector, freeze_vector, Key.same_tuple_iff, List.forall₂_map_left_iff,
            List.forall₂_map_right_iff]
          have hboth := (List.forall₂_and_left xs ys).mpr ⟨ih, h⟩
          exact hboth.imp fun x y hxy => hxy.1 hxy.2
      | _ => simp [same] at h
  | set items =>
      cases e with
      | set _ => simpa [same, freeze] using h
      | _ => simp [same] at h
  | map xs ih =>
      cases e with
      | map ys =>
          rw [same_map_iff] at h
          rw [freeze_map, freeze_map, Key.same_bag_iff]
          refine ⟨by simpa using h.1, List.forall_mem_map.mpr fun e he => ?_⟩
          obtain ⟨y, hlookup, hsame⟩ := h.2 e he
          obtain ⟨l, hkl, hmem⟩ := Key.mem_of_lookup? hlookup
          exact ⟨_, List.mem_map_of_mem hmem,
            (Key.same_pair_iff _ _ _ _).mpr ⟨hkl, ih e he hsame⟩⟩
      | _ => simp [same] at h

/-- Equal data have maps and sets at the same places. -/
theorem not_confused_of_same {d e : Datum} (hd : d.WellFormed) (he : e.WellFormed)
    (h : d.same e = true) : ¬ Confused d e := by
  intro hconfused
  induction hconfused with
  | mapSet => simp [same] at h
  | setMap => simp [same] at h
  | @item xs ys i x y hx hy _ ih =>
      rw [wellFormed_vector_iff] at hd he
      apply ih (hd x (List.mem_of_getElem? hx)) (he y (List.mem_of_getElem? hy))
      rw [same_vector_iff, List.forall₂_iff_get] at h
      obtain ⟨hi, rfl⟩ := List.getElem?_eq_some_iff.mp hx
      obtain ⟨hj, rfl⟩ := List.getElem?_eq_some_iff.mp hy
      exact h.2 i hi hj
  | @value xs ys k l x y hx hy hkl _ ih =>
      rw [wellFormed_map_iff] at hd he
      apply ih (hd.2.2 _ hx) (he.2.2 _ hy)
      rw [same_map_iff] at h
      obtain ⟨y', hlookup, hsame⟩ := h.2 _ hx
      rw [Key.lookup?_of_mem (hd.1 _ hx) he.2.1 hy hkl, Option.some_inj] at hlookup
      rw [hlookup]
      exact hsame

/-- Data with the same key are equal, where no map is taken for a set. -/
theorem same_of_freeze_same {d e : Datum} (hd : d.WellFormed) (he : e.WellFormed)
    (h : d.freeze.same e.freeze = true) (hconfused : ¬ Confused d e) : d.same e = true := by
  induction d using Datum.induction generalizing e with
  | atom a => cases e <;> simp_all [same, freeze, Key.same]
  | vector xs ih =>
      cases e with
      | vector ys =>
          rw [wellFormed_vector_iff] at hd he
          rw [freeze_vector, freeze_vector, Key.same_tuple_iff, List.forall₂_map_left_iff,
            List.forall₂_map_right_iff, List.forall₂_iff_get] at h
          rw [same_vector_iff, List.forall₂_iff_get]
          refine ⟨h.1, fun i hi hj => ?_⟩
          have hx := List.get_mem xs ⟨i, hi⟩
          have hy := List.get_mem ys ⟨i, hj⟩
          apply ih _ hx (hd _ hx) (he _ hy) (h.2 i hi hj)
          intro hitem
          exact hconfused (.item (List.getElem?_eq_getElem hi) (List.getElem?_eq_getElem hj) hitem)
      | _ => simp [freeze, Key.same] at h
  | set items =>
      cases e with
      | set _ => simpa [same, freeze] using h
      | map entries => exact absurd (.setMap items entries) hconfused
      | _ => simp [freeze, Key.same] at h
  | map xs ih =>
      cases e with
      | map ys =>
          rw [wellFormed_map_iff] at hd he
          rw [freeze_map, freeze_map, Key.same_bag_iff, List.length_map, List.length_map] at h
          rw [same_map_iff]
          refine ⟨h.1, fun e₁ he₁ => ?_⟩
          obtain ⟨_, hf, hsame⟩ := h.2 _ (List.mem_map_of_mem he₁)
          obtain ⟨e₂, he₂, rfl⟩ := List.mem_map.mp hf
          obtain ⟨hkl, hvalue⟩ := (Key.same_pair_iff _ _ _ _).mp hsame
          -- no other entry has the key, so the partner in the bag is the one looked up
          have hlookup := Key.lookup?_of_mem (hd.1 _ he₁) he.2.1 he₂ hkl
          refine ⟨e₂.2, hlookup, ih _ he₁ (hd.2.2 _ he₁) (he.2.2 _ he₂) hvalue ?_⟩
          intro hinner
          exact hconfused (.value he₁ he₂ hkl hinner)
      | set items => exact absurd (.mapSet xs items) hconfused
      | _ => simp [freeze, Key.same] at h

/-- Two data are equal exactly if their keys are the same and no map is taken for a set. -/
theorem same_iff_freeze {d e : Datum} (hd : d.WellFormed) (he : e.WellFormed) :
    d.same e = true ↔ d.freeze.same e.freeze = true ∧ ¬ Confused d e := by
  constructor
  · intro h
    exact ⟨freeze_same_of_same h, not_confused_of_same hd he h⟩
  · rintro ⟨h, hconfused⟩
    exact same_of_freeze_same hd he h hconfused

theorem isNaN_freeze (d : Datum) : d.freeze.isNaN = d.isNaN := by
  cases d <;> rfl

end Datum

end EdnLint
