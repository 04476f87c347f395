import EdnLint.Proofs.Datum.Same
import EdnLint.Proofs.Document.Form

/-!
# The readings of a node

A node is read as a datum, as a key, and by its children. Wrappers are stripped at
different places in the three: `toDatum` and `toKey` go to the last form of a
wrapper as they meet it, and a path unwraps a node before each step. Both come to
the same form, so a node and its unwrapped form read alike.

The keys of nodes are well-formed, because a set and a map keep the first of equal
members only.
-/

namespace EdnLint

namespace Node

/-- Induction over nodes: a node may use the statement for its forms. -/
@[elab_as_elim]
theorem induction {P : Node → Prop}
    (mk : ∀ shape start stop forms, (∀ n ∈ forms, P n) → P (.mk shape start stop forms))
    (n : Node) : P n :=
  @Node.rec P (fun forms => ∀ n ∈ forms, P n) mk
    (fun _ h => absurd h List.not_mem_nil)
    (fun _ _ hn hns _ h => (List.mem_cons.mp h).elim (fun e => e ▸ hn) (hns _)) n

theorem toKeys_eq_map (forms : List Node) : toKeys forms = forms.map toKey := by
  induction forms with
  | nil => rfl
  | cons n forms ih => rw [toKeys, ih, List.map_cons]

theorem toData_eq_map (forms : List Node) : toData forms = forms.map toDatum := by
  induction forms with
  | nil => rfl
  | cons n forms ih => rw [toData, ih, List.map_cons]

/-- The entries of a map as data are its children, read as data. -/
theorem entryData_eq_map (forms : List Node) :
    entryData forms = (entries forms).map fun e => (e.1, e.2.toDatum) := by
  fun_induction entries forms with
  | case1 key value forms ih => rw [entryData, ih, List.map_cons]
  | case2 forms h =>
      rw [entryData]
      · rfl
      · exact h

theorem entryKeys_eq_map (forms : List Node) :
    entryKeys forms = (entries forms).map fun e => .tuple [e.1, e.2.toKey] := by
  fun_induction entries forms with
  | case1 key value forms ih => rw [entryKeys, ih, List.map_cons]
  | case2 forms h =>
      rw [entryKeys]
      · rfl
      · exact h

theorem mem_entries {forms : List Node} {k : Key} {n : Node} (h : (k, n) ∈ entries forms) :
    n ∈ forms ∧ ∃ m ∈ forms, m.toKey = k := by
  fun_induction entries forms with
  | case1 key value forms ih =>
      rcases List.mem_cons.mp h with heq | h
      · cases heq
        exact ⟨by simp, key, by simp, rfl⟩
      · obtain ⟨hn, m, hm, hk⟩ := ih h
        exact ⟨by simp [hn], m, by simp [hm], hk⟩
  | case2 => cases h

/-- The members that a set keeps are keys of its forms. -/
theorem exists_of_mem_distinct {forms : List Node} {k : Key}
    (h : k ∈ Key.distinct (toKeys forms)) : ∃ m ∈ forms, m.toKey = k := by
  have hk := (Key.mem_distinctFrom h).1
  rw [toKeys_eq_map] at hk
  exact List.mem_map.mp hk

/-- The entries that a map keeps are made of its forms. -/
theorem exists_of_mem_distinctEntries {forms : List Node} {k : Key} {d : Datum}
    (h : (k, d) ∈ Key.distinctEntries (entryData forms)) :
    (∃ n ∈ forms, n.toDatum = d) ∧ ∃ m ∈ forms, m.toKey = k := by
  rcases Key.mem_distinctEntriesFrom h with ⟨-, before, after, hsplit, -⟩
  have hwritten : (k, d) ∈ entryData forms := hsplit ▸ by simp
  rw [entryData_eq_map] at hwritten
  rcases List.mem_map.mp hwritten with ⟨e, he, heq⟩
  cases heq
  rcases mem_entries he with ⟨hvalue, hkey⟩
  exact ⟨⟨e.2, hvalue, rfl⟩, hkey⟩

theorem lastDatum_append (forms : List Node) (n : Node) :
    lastDatum (forms ++ [n]) = n.toDatum := by
  induction forms with
  | nil => rfl
  | cons m forms ih =>
      cases forms with
      | nil => rfl
      | cons => exact ih

theorem lastKey_append (forms : List Node) (n : Node) : lastKey (forms ++ [n]) = n.toKey := by
  induction forms with
  | nil => rfl
  | cons m forms ih =>
      cases forms with
      | nil => rfl
      | cons => exact ih

theorem unwrapLast_append (whole : Node) (forms : List Node) (n : Node) :
    unwrapLast whole (forms ++ [n]) = n.unwrap := by
  induction forms with
  | nil => rfl
  | cons m forms ih =>
      cases forms with
      | nil => rfl
      | cons => exact ih

theorem unwrap_of_not_wrapper {n : Node} (h : n.shape.isWrapper = false) : n.unwrap = n := by
  cases n with
  | mk shape start stop forms =>
      rw [shape_mk] at h
      simp [unwrap, h]

theorem unwrap_wrapper_nil {shape : Shape} (start stop : Position) (h : shape.isWrapper = true) :
    (mk shape start stop []).unwrap = mk shape start stop [] := by
  simp [unwrap, unwrapLast, h]

theorem unwrap_wrapper_append {shape : Shape} (start stop : Position) (forms : List Node)
    (n : Node) (h : shape.isWrapper = true) :
    (mk shape start stop (forms ++ [n])).unwrap = n.unwrap := by
  simp [unwrap, unwrapLast_append, h]

/-- Unwrapping leads through the last forms of wrappers: what holds of a node that
is no wrapper, or wraps nothing, and comes back from the last form to the wrapper,
holds of every node. -/
theorem unwrap_induction {P : Node → Node → Prop}
    (stay : ∀ n : Node, n.shape.isWrapper = false ∨ n.forms = [] → P n n)
    (wrapper : ∀ (shape : Shape) (start stop : Position) (forms : List Node) (n : Node),
      shape.isWrapper = true → P n n.unwrap → P (.mk shape start stop (forms ++ [n])) n.unwrap)
    (n : Node) : P n n.unwrap := by
  induction n using Node.induction with
  | mk shape start stop forms ih =>
      by_cases hw : shape.isWrapper = true
      · rcases List.eq_nil_or_concat forms with rfl | ⟨before, last, rfl⟩
        · rw [unwrap_wrapper_nil start stop hw]
          exact stay _ (Or.inr rfl)
        · rw [List.concat_eq_append] at ih ⊢
          rw [unwrap_wrapper_append start stop before last hw]
          exact wrapper shape start stop before last hw (ih last (by simp))
      · have hw' : shape.isWrapper = false := by simpa using hw
        rw [unwrap_of_not_wrapper (by exact hw')]
        exact stay _ (Or.inl hw')

theorem toDatum_wrapper {shape : Shape} (start stop : Position) (forms : List Node)
    (h : shape.isWrapper = true) : (mk shape start stop forms).toDatum = lastDatum forms := by
  cases shape <;> first | rfl | cases h

theorem toKey_wrapper {shape : Shape} (start stop : Position) (forms : List Node)
    (h : shape.isWrapper = true) : (mk shape start stop forms).toKey = lastKey forms := by
  cases shape <;> first | rfl | cases h

/-- A node says what the form under its wrappers says. -/
theorem toDatum_unwrap (n : Node) : n.unwrap.toDatum = n.toDatum := by
  refine unwrap_induction (P := fun n m => m.toDatum = n.toDatum) (fun n _ => rfl) ?_ n
  intro shape start stop forms n hw ih
  rw [ih, toDatum_wrapper start stop _ hw, lastDatum_append]

/-- A node keys a map as the form under its wrappers does. -/
theorem toKey_unwrap (n : Node) : n.unwrap.toKey = n.toKey := by
  refine unwrap_induction (P := fun n m => m.toKey = n.toKey) (fun n _ => rfl) ?_ n
  intro shape start stop forms n hw ih
  rw [ih, toKey_wrapper start stop _ hw, lastKey_append]

theorem isWrapper_unwrap (n : Node) : n.unwrap.shape.isWrapper = false ∨ n.unwrap.forms = [] :=
  unwrap_induction (P := fun _ m => m.shape.isWrapper = false ∨ m.forms = []) (fun _ h => h)
    (fun _ _ _ _ _ _ ih => ih) n

theorem Form.unwrap {Q : Position → Prop} {n : Node} (h : n.Form Q) : n.unwrap.Form Q := by
  refine unwrap_induction (P := fun n m => n.Form Q → m.Form Q) (fun _ _ h => h) ?_ n h
  intro shape start stop forms n _ ih hform
  exact ih (hform.forms n (by simp))

/-- The keys of nodes hold no key twice in a bag. -/
theorem toKey_wellFormed (n : Node) : n.toKey.WellFormed := by
  induction n using Node.induction with
  | mk shape start stop forms ih =>
      have hkeys : ∀ k ∈ toKeys forms, k.WellFormed := by
        rw [toKeys_eq_map]
        exact List.forall_mem_map.mpr ih
      have hentries : ∀ k ∈ entryKeys forms, k.WellFormed := by
        rw [entryKeys_eq_map]
        refine List.forall_mem_map.mpr fun e he => ?_
        obtain ⟨hn, m, hm, hk⟩ := mem_entries he
        rw [Key.wellFormed_tuple_iff]
        simp [← hk, ih m hm, ih e.2 hn]
      cases shape with
      | scalar a => trivial
      | document => exact (Key.wellFormed_tuple_iff _).mpr hkeys
      | vector => exact (Key.wellFormed_tuple_iff _).mpr hkeys
      | list => exact (Key.wellFormed_tuple_iff _).mpr hkeys
      | set => exact Key.wellFormed_bag_distinct hkeys
      | map => exact Key.wellFormed_bag_distinct hentries
      | _ =>
          rw [toKey_wrapper start stop forms rfl]
          rcases List.eq_nil_or_concat forms with rfl | ⟨before, last, rfl⟩
          · trivial
          · rw [List.concat_eq_append, lastKey_append]
            exact ih last (by simp)

/-- A symbol that a form says is not empty. -/
theorem Form.symbol_ne_nil {Q : Position → Prop} {n : Node} (hn : n.Form Q) {name : Text}
    (h : n.toDatum = .atom (.symbol name) ∨ n.toKey = .symbol name) : name ≠ [] := by
  have hform := hn.unwrap
  have hbare := isWrapper_unwrap n
  rw [← toDatum_unwrap, ← toKey_unwrap] at h
  generalize n.unwrap = m at h hform hbare
  cases hform with
  | @scalar a start stop ha =>
      rcases h with h | h <;>
      · cases h
        exact ha
  | @compound shape start stop forms hshape =>
      cases shape <;>
        simp_all [toDatum, toKey, Key.symbol, Shape.isWrapper, Shape.isCompound]
      all_goals simp [lastDatum, lastKey, Datum.nil] at h

/-- The steps of a path lead from a form to its forms. -/
theorem mem_children {n m : Node} {k : Key} (h : (k, m) ∈ n.children) : m ∈ n.forms := by
  have hindexed : ∀ (forms : List Node) (i : Nat), (k, m) ∈ indexedFrom i forms → m ∈ forms := by
    intro forms
    induction forms with
    | nil => exact fun _ h => absurd h List.not_mem_nil
    | cons form forms ih =>
        intro i h
        rcases List.mem_cons.mp h with heq | h
        · cases heq
          exact List.mem_cons_self
        · exact List.mem_cons_of_mem form (ih (i + 1) h)
  unfold children at h
  split at h
  · exact (mem_entries h).1
  split at h
  · exact hindexed _ _ h
  · cases h

end Node

end EdnLint
