import EdnLint.Document.Location
import EdnLint.Proofs.Document.Decidable

/-!
# Descending by data and by text

`Datum.Walks d path v` says that the keys and indices of `path` lead from the
datum `d` down to `v`. It knows nothing of the text: a map is entered by a key it
stores, a vector by an index, and an atom or a set not at all.

The tree is descended by `Node.walk`, which looks for the first child under a key
of the same kind and value. The two agree. A map stores the first entry under each
key, so an earlier child could only be taken for it if it had the same key, and
then the entry would not be stored (`follow?_of_mem`).
-/

namespace EdnLint

namespace Datum

/-- The path leads from the first datum to the second, by stored keys and by
indices. -/
inductive Walks : Datum → List Key → Datum → Prop
  | here (d : Datum) : Walks d [] d
  | key {entries : List (Key × Datum)} {k : Key} {d v : Datum} {path : List Key} :
      (k, d) ∈ entries → Walks d path v → Walks (.map entries) (k :: path) v
  | index {items : List Datum} {i : Nat} {d v : Datum} {path : List Key} :
      items[i]? = some d → Walks d path v → Walks (.vector items) (.index i :: path) v

theorem walks_append_iff {d w : Datum} {p q : List Key} :
    d.Walks (p ++ q) w ↔ ∃ v, d.Walks p v ∧ v.Walks q w := by
  constructor
  · induction p generalizing d with
    | nil => exact fun h => ⟨d, .here d, h⟩
    | cons k p ih =>
        intro h
        cases h with
        | key hmem h =>
            obtain ⟨v, hv, hw⟩ := ih h
            exact ⟨v, .key hmem hv, hw⟩
        | index hi h =>
            obtain ⟨v, hv, hw⟩ := ih h
            exact ⟨v, .index hi hv, hw⟩
  · rintro ⟨v, hv, hw⟩
    induction hv with
    | here d => exact hw
    | key hmem _ ih => exact .key hmem (ih hw)
    | index hi _ ih => exact .index hi (ih hw)

theorem Walks.concat_key {root d : Datum} {path : List Key} {entries : List (Key × Datum)}
    {k : Key} (h : root.Walks path (.map entries)) (hmem : (k, d) ∈ entries) :
    root.Walks (path ++ [k]) d :=
  walks_append_iff.mpr ⟨_, h, .key hmem (.here d)⟩

theorem Walks.concat_index {root d : Datum} {path : List Key} {items : List Datum} {i : Nat}
    (h : root.Walks path (.vector items)) (hi : items[i]? = some d) :
    root.Walks (path ++ [.index i]) d :=
  walks_append_iff.mpr ⟨_, h, .index hi (.here d)⟩

/-- A last step is taken in a map or in a vector. -/
theorem Walks.of_concat {root v : Datum} {path : List Key} {k : Key}
    (h : root.Walks (path ++ [k]) v) :
    (∃ entries d, root.Walks path (.map entries) ∧ (k, d) ∈ entries) ∨
      ∃ i, k = .index i := by
  obtain ⟨w, hw, hstep⟩ := walks_append_iff.mp h
  cases hstep with
  | key hmem _ => exact Or.inl ⟨_, _, hw, hmem⟩
  | index _ _ => exact Or.inr ⟨_, rfl⟩

end Datum

namespace Node

variable {Q : Position → Prop}

/-- A form that says a map is a map under its wrappers, and says the first entries
of it. -/
theorem Form.toDatum_eq_map {n : Node} (hn : n.Form Q) {stored : List (Key × Datum)}
    (h : n.toDatum = .map stored) :
    n.unwrap.shape = .map ∧ stored = Key.distinctEntries (entryData n.unwrap.forms) := by
  have hform := hn.unwrap
  have hbare := isWrapper_unwrap n
  rw [← toDatum_unwrap] at h
  generalize n.unwrap = m at h hform hbare ⊢
  cases hform with
  | scalar => cases h
  | @compound shape start stop forms hshape =>
      cases shape <;> simp_all [toDatum, Shape.isWrapper, Shape.isCompound]
      all_goals simp [lastDatum, Datum.nil] at h

/-- A form that says a vector is a vector or a list under its wrappers. -/
theorem Form.toDatum_eq_vector {n : Node} (hn : n.Form Q) {items : List Datum}
    (h : n.toDatum = .vector items) :
    n.unwrap.shape ≠ .map ∧ n.unwrap.shape.isSequence = true ∧
      items = n.unwrap.forms.map toDatum := by
  have hform := hn.unwrap
  have hbare := isWrapper_unwrap n
  rw [← toDatum_unwrap] at h
  generalize n.unwrap = m at h hform hbare ⊢
  cases hform with
  | scalar => cases h
  | @compound shape start stop forms hshape =>
      rw [← toData_eq_map]
      cases shape <;> simp_all [toDatum, Shape.isWrapper, Shape.isCompound, Shape.isSequence]
      all_goals simp [lastDatum, Datum.nil] at h

/-- A key that the datum of a form stores is written by a form inside it. -/
theorem Form.exists_toKey {n : Node} (hn : n.Form Q) {stored : List (Key × Datum)} {k : Key}
    {d : Datum} (hd : n.toDatum = .map stored) (hmem : (k, d) ∈ stored) :
    ∃ m : Node, m.Form Q ∧ m.toKey = k := by
  obtain ⟨-, rfl⟩ := hn.toDatum_eq_map hd
  obtain ⟨-, m, hm, hkey⟩ := exists_of_mem_distinctEntries hmem
  exact ⟨m, hn.unwrap.forms m hm, hkey⟩

/-- In a list of children the step to a key finds the first child under it, if no
child before it has the same key. -/
theorem find?_child {before : List (Key × Node)} {k : Key} (hk : k.isNaN = false)
    (hwf : ∀ e ∈ before, e.1.WellFormed) (hbefore : ∀ e ∈ before, k.same e.1 = false)
    (n : Node) (after : List (Key × Node)) :
    (before ++ (k, n) :: after).find? (fun e => e.1.sameKind k && e.1.equal k) =
      some (k, n) := by
  have hnone : before.find? (fun e => e.1.sameKind k && e.1.equal k) = none := by
    rw [List.find?_eq_none]
    intro e he hfound
    have hsame : e.1.same k = true := by
      simp only [Key.equal, Bool.and_eq_true] at hfound
      exact hfound.2.1
    have hback := Key.same_symm (hwf e he) hsame
    rw [hbefore e he] at hback
    cases hback
  rw [List.find?_append, hnone, Option.none_or, List.find?_cons_of_pos]
  simp [Key.sameKind_self, Key.equal_self hk]

/-- A step to a key that the datum of a form stores leads to a form that says the
value stored under it. -/
theorem follow?_of_mem {n : Node} (hn : n.Form Q) {stored : List (Key × Datum)} {k : Key}
    {d : Datum} (hd : n.toDatum = .map stored) (hmem : (k, d) ∈ stored) (hk : k.isNaN = false) :
    ∃ child, n.follow? k = some child ∧ child.toDatum = d ∧ child.Form Q := by
  obtain ⟨hshape, rfl⟩ := hn.toDatum_eq_map hd
  obtain ⟨-, before, after, hsplit, hbefore⟩ := Key.mem_distinctEntriesFrom hmem
  rw [entryData_eq_map, List.map_eq_append_iff] at hsplit
  obtain ⟨before', rest, hentries, rfl, hrest⟩ := hsplit
  obtain ⟨e, after', rfl, he, rfl⟩ := List.map_eq_cons_iff.mp hrest
  obtain ⟨k', child⟩ := e
  obtain ⟨rfl, rfl⟩ := Prod.mk.inj he
  have hwf : ∀ e ∈ before', e.1.WellFormed := by
    intro e he
    obtain ⟨-, m, -, hm⟩ := mem_entries (hentries ▸ List.mem_append_left _ he)
    rw [← hm]
    exact m.toKey_wellFormed
  have hfound := find?_child hk hwf (fun e he => hbefore _ (List.mem_map_of_mem he)) child after'
  refine ⟨child, ?_, rfl, hn.unwrap.forms child ?_⟩
  · simp [follow?, child?, children, hshape, hentries, hfound]
  · exact (mem_entries (k := k') (hentries ▸ by simp)).1

theorem index_equal_iff (i j : Nat) : (Key.index i).equal (.index j) = true ↔ i = j := by
  simp [Key.equal, Key.index, Key.isNaN, Atom.isNaN, Number.isNaN, Key.same, Atom.same,
    Atom.numeric?, Number.same_iff, Number.quantity_natCast]

theorem find?_indexedFrom {forms : List Node} {i : Nat} {n : Node} (h : forms[i]? = some n)
    (first : Nat) :
    (indexedFrom first forms).find?
        (fun e => e.1.sameKind (.index (first + i)) && e.1.equal (.index (first + i))) =
      some (.index (first + i), n) := by
  induction forms generalizing i first with
  | nil => simp at h
  | cons m forms ih =>
      rw [indexedFrom]
      cases i with
      | zero =>
          obtain rfl : m = n := by simpa using h
          refine List.find?_cons_of_pos ?_
          simp [Key.sameKind_self, index_equal_iff]
      | succ i =>
          have hne : (Key.index first).equal (.index (first + (i + 1))) = false := by
            rw [Bool.eq_false_iff, ne_eq, index_equal_iff]
            omega
          rw [List.find?_cons_of_neg (by simp [hne])]
          have hshift : first + (i + 1) = first + 1 + i := by omega
          rw [hshift]
          exact ih (by simpa using h) (first + 1)

/-- A step to an index of the vector that a form says leads to a form that says the
item there. -/
theorem follow?_of_getElem? {n : Node} (hn : n.Form Q) {items : List Datum} {i : Nat}
    {d : Datum} (hd : n.toDatum = .vector items) (hi : items[i]? = some d) :
    ∃ child, n.follow? (.index i) = some child ∧ child.toDatum = d ∧ child.Form Q := by
  obtain ⟨hmap, hshape, rfl⟩ := hn.toDatum_eq_vector hd
  rw [List.getElem?_map, Option.map_eq_some_iff] at hi
  obtain ⟨child, hchild, rfl⟩ := hi
  have hfound := find?_indexedFrom hchild 0
  rw [Nat.zero_add] at hfound
  refine ⟨child, ?_, rfl, hn.unwrap.forms child (List.mem_of_getElem? hchild)⟩
  simp [follow?, child?, children, hmap, hshape, hfound]

/-- The walk through the tree follows the walk through the datum step by step. -/
theorem walk_of_walks {n : Node} (hn : n.Form Q) {d v : Datum} {path : List Key}
    (hw : d.Walks path v) (hd : n.toDatum = d) (hpath : ∀ k ∈ path, k.isNaN = false)
    (matched : List Key) :
    ∃ m, n.walk matched path = some ⟨m, true, matched ++ path⟩ ∧ m.toDatum = v := by
  induction hw generalizing n matched with
  | here d => exact ⟨n, by simp, hd⟩
  | @key stored k d v path hmem hw ih =>
      rw [List.forall_mem_cons] at hpath
      obtain ⟨child, hchild, hd', hform⟩ := follow?_of_mem hn hd hmem hpath.1
      obtain ⟨m, hwalk, hm⟩ := ih hform hd' hpath.2 (matched ++ [k])
      refine ⟨m, ?_, hm⟩
      rw [walk_cons, hchild]
      simpa using hwalk
  | @index items i d v path hi hw ih =>
      rw [List.forall_mem_cons] at hpath
      obtain ⟨child, hchild, hd', hform⟩ := follow?_of_getElem? hn hd hi
      obtain ⟨m, hwalk, hm⟩ := ih hform hd' hpath.2 (matched ++ [.index i])
      refine ⟨m, ?_, hm⟩
      rw [walk_cons, hchild]
      simpa using hwalk

/-- A step by a key that the datum of a form does not store leads nowhere. -/
theorem follow?_eq_none {n : Node} (hn : n.Form Q) {stored : List (Key × Datum)} {k : Key}
    (hd : n.toDatum = .map stored) (hk : Key.lookup? k stored = none) : n.follow? k = none := by
  obtain ⟨hshape, rfl⟩ := hn.toDatum_eq_map hd
  rw [follow?, child?, Option.map_eq_none_iff, List.find?_eq_none]
  intro e he hfound
  rw [children, if_pos hshape] at he
  simp only [Bool.and_eq_true, Key.equal] at hfound
  have hwf : e.1.WellFormed := by
    obtain ⟨-, m, -, hm⟩ := mem_entries he
    rw [← hm]
    exact m.toKey_wellFormed
  have hentry : (e.1, e.2.toDatum) ∈ entryData n.unwrap.forms := by
    rw [entryData_eq_map]
    exact List.mem_map.mpr ⟨e, he, rfl⟩
  rcases Key.exists_mem_distinctEntriesFrom [] hentry with hseen | ⟨⟨l, d⟩, hmem, hsame⟩
  · cases hseen
  · have hkl := Key.same_trans (Key.same_symm hwf hfound.2.1) hsame
    have hsome := Key.lookup?_isSome_of_same hmem hkl
    rw [Key.distinctEntries] at hk
    rw [hk] at hsome
    cases hsome

theorem follow?_keyword_eq_none {n : Node} (hn : n.Form Q) {stored : List (Key × Datum)}
    {name : Text} (hd : n.toDatum = .map stored) (hname : Datum.field? stored name = none) :
    n.follow? (.keyword name) = none :=
  follow?_eq_none hn hd hname

/-- A path that is taken to its end leaves the rest of a longer path to be taken. -/
theorem walk_append {n m : Node} {matched reached p : List Key}
    (h : n.walk matched p = some ⟨m, true, reached⟩) (q : List Key) :
    n.walk matched (p ++ q) = m.walk reached q := by
  induction p generalizing n matched with
  | nil =>
      cases h
      rfl
  | cons k p ih =>
      rw [walk_cons] at h
      rw [List.cons_append, walk_cons]
      split at h
      · exact ih h
      · split at h
        · cases h
        · cases h

/-- A path that is taken to its end passes the ends of its beginnings. -/
theorem exists_walk_of_append {n m : Node} {matched reached p q : List Key}
    (h : n.walk matched (p ++ q) = some ⟨m, true, reached⟩) :
    ∃ k, n.walk matched p = some ⟨k, true, matched ++ p⟩ ∧
      k.walk (matched ++ p) q = some ⟨m, true, reached⟩ := by
  induction p generalizing n matched with
  | nil => exact ⟨n, by simp, by simpa using h⟩
  | cons step p ih =>
      rw [List.cons_append, walk_cons] at h
      rw [walk_cons]
      split at h
      · rename_i child hchild
        rcases ih h with ⟨k, hk, hrest⟩
        rw [List.append_assoc, List.singleton_append] at hk hrest
        exact ⟨k, hk, hrest⟩
      · split at h
        · cases h
        · cases h

theorem Form.follow? {n child : Node} (hn : n.Form Q) {k : Key} (h : n.follow? k = some child) :
    child.Form Q := by
  obtain ⟨e, he, rfl⟩ := Option.map_eq_some_iff.mp h
  exact hn.unwrap.forms e.2 (mem_children (List.mem_of_find?_eq_some he))

/-- Wherever a walk ends, it ends at a form. -/
theorem Form.walk {n : Node} (hn : n.Form Q) {matched path : List Key} {l : Location}
    (h : n.walk matched path = some l) : l.node.Form Q := by
  induction path generalizing n matched with
  | nil =>
      cases h
      exact hn
  | cons k path ih =>
      rw [walk_cons] at h
      split at h
      · rename_i child hchild
        exact ih (hn.follow? hchild) h
      · split at h
        · cases h
        · cases h
          exact hn

/-- A walk that has taken a step ends somewhere. -/
theorem walk_isSome {matched : List Key} (h : matched ≠ []) (n : Node) (path : List Key) :
    (n.walk matched path).isSome = true := by
  induction path generalizing n matched with
  | nil => rfl
  | cons k path ih =>
      rw [walk_cons]
      split
      · exact ih (by simp) _
      · simp [h]

/-- A path whose first step leads somewhere has a location, also without its last
step. -/
theorem resolve_isSome {tree top : Node} (htop : tree.topForm? = some top) {k : Key}
    (hk : (top.follow? k).isSome = true) (path : List Key) (unknownKey : Bool) :
    (tree.resolve (k :: path) unknownKey).isSome = true := by
  obtain ⟨child, hchild⟩ := Option.isSome_iff_exists.mp hk
  have hstep : ∀ path, (top.walk [] (k :: path)).isSome = true := by
    intro path
    rw [walk_cons, hchild]
    exact walk_isSome (by simp) child path
  rw [resolve, htop]
  cases unknownKey with
  | false => exact hstep path
  | true =>
      cases path with
      | nil => rfl
      | cons l path => exact hstep _

end Node

open Node

/-- The first form of a document that reads is where its paths start and what its
datum says. -/
theorem parse_topForm {Q : Position → Prop} {t : Text} {tree : Node}
    (hQ : ∀ s, s <+: t → Q (Position.first.after s)) (hp : parse t = .ok tree)
    (hforms : tree.forms ≠ []) :
    ∃ top, tree.topForm? = some top ∧ top.Form Q ∧ tree.toDatum = top.toDatum := by
  obtain ⟨hshape, hform⟩ := parse_form hQ hp
  cases tree with
  | mk shape start stop forms =>
      rw [shape_mk] at hshape
      subst hshape
      cases forms with
      | nil => exact absurd rfl hforms
      | cons top forms =>
          exact ⟨top, by simp [topForm?], hform top List.mem_cons_self, rfl⟩

theorem readDatum_eq_ok_iff {t : Text} {d : Datum} :
    readDatum t = .ok d ↔ ∃ tree, parse t = .ok tree ∧ tree.toDatum = d := by
  unfold readDatum
  cases parse t with
  | error e => simp [Except.map]
  | ok tree => simp [Except.map]

/-- A document that says a map has a form. -/
theorem forms_ne_nil_of_parse {t : Text} {tree : Node} {stored : List (Key × Datum)}
    (hp : parse t = .ok tree) (hd : tree.toDatum = .map stored) : tree.forms ≠ [] := by
  have hshape := (parse_form (Q := fun _ => True) (fun _ _ => trivial) hp).1
  cases tree with
  | mk shape start stop forms =>
      rw [shape_mk] at hshape
      subst hshape
      rintro rfl
      cases hd

/-- A path that walks the datum of a document resolves in its tree, all of it, to a
node that says the value the path walks to. -/
theorem resolve_of_walks {t : Text} {tree : Node} {d v : Datum} {path : List Key}
    (hp : parse t = .ok tree) (hforms : tree.forms ≠ []) (hd : readDatum t = .ok d)
    (hw : d.Walks path v) (hpath : ∀ k ∈ path, k.isNaN = false) :
    ∃ n, tree.resolve path false = some ⟨n, true, path⟩ ∧ n.toDatum = v := by
  obtain ⟨top, htop, hform, hdatum⟩ :=
    parse_topForm (Q := fun _ => True) (fun _ _ => trivial) hp hforms
  have hread : top.toDatum = d := by
    obtain ⟨tree', hp', rfl⟩ := readDatum_eq_ok_iff.mp hd
    rw [hp] at hp'
    cases hp'
    exact hdatum.symm
  obtain ⟨n, hwalk, hn⟩ := walk_of_walks hform hw hread hpath []
  refine ⟨n, ?_, hn⟩
  rw [resolve, htop]
  exact hwalk

/-- Through a tag and metadata, by a ratio that the integer behind it repeats, an
index, and a vector as a key. -/
theorem resolve_of_walks_wrapped :
    let t : Text := "#t \x7b2/2 ^m [7 \x7b[##NaN] 8\x7d] 1 9\x7d"
    let one : Key := .atom (.number (.ratio 1))
    let nested : Key := .tuple [.atom (.number (.float .nan))]
    ∃ tree n, parse t = .ok tree ∧
      tree.resolve [one, .index 1, nested] false = some ⟨n, true, [one, .index 1, nested]⟩ ∧
      n.toDatum = .atom (.number (.int 8)) := by
  intro t one nested
  let d : Datum := .map [(one, .vector [.atom (.number (.int 7)),
    .map [(nested, .atom (.number (.int 8)))]])]
  have hd : readDatum t = .ok d := by decide +kernel
  obtain ⟨tree, hp, hdatum⟩ := readDatum_eq_ok_iff.mp hd
  have hw : d.Walks [one, .index 1, nested] (.atom (.number (.int 8))) :=
    .key List.mem_cons_self (.index rfl (.key List.mem_cons_self (.here _)))
  obtain ⟨n, hresolve, hn⟩ :=
    resolve_of_walks hp (forms_ne_nil_of_parse hp hdatum) hd hw (by decide)
  exact ⟨tree, n, hp, hresolve, hn⟩

end EdnLint
