import EdnLint.Datum.Basic
import EdnLint.Proofs.Number.Quantity
import Mathlib.Data.List.Forall2

/-!
# Being the same key

`Key.same` decides which keys a map merges. It is reflexive and transitive on all
keys. It is symmetric as well on keys whose bags hold no key twice
(`Key.WellFormed`): two bags of one length are the same as soon as one is included
in the other, and without repetitions the inclusion then goes both ways by
counting.

`mem_distinctEntriesFrom` says what the first entries of a map are: an entry is
kept exactly where no entry before it has the same key.
-/

namespace EdnLint

namespace Atom

/-- What decides whether two atoms are the same key: the quantity of a number or
a truth value, and the atom itself otherwise. -/
def standing (a : Atom) : Quantity ⊕ Atom :=
  match a.numeric? with
  | some n => .inl n.quantity
  | none => .inr a

theorem same_iff (a b : Atom) : a.same b = true ↔ a.standing = b.standing := by
  unfold same standing
  cases ha : a.numeric? with
  | none => cases hb : b.numeric? <;> simp
  | some m =>
      cases hb : b.numeric? with
      | none => simp
      | some n => simp [Number.same_iff]

theorem sameKind_self (a : Atom) : a.sameKind a = true := by
  cases a with
  | number n => cases n <;> rfl
  | _ => rfl

end Atom

namespace Key

/-- Induction over keys: a tuple or a bag may use the statement for its items. -/
@[elab_as_elim]
theorem induction {P : Key → Prop} (atom : ∀ a, P (.atom a))
    (tuple : ∀ items, (∀ k ∈ items, P k) → P (.tuple items))
    (bag : ∀ items, (∀ k ∈ items, P k) → P (.bag items)) (k : Key) : P k :=
  @Key.rec P (fun items => ∀ k ∈ items, P k) atom tuple bag
    (fun _ h => absurd h List.not_mem_nil)
    (fun _ _ hk hks _ h => (List.mem_cons.mp h).elim (fun e => e ▸ hk) (hks _)) k

theorem sameAll_iff (xs ys : List Key) :
    sameAll xs ys = true ↔ List.Forall₂ (fun x y => x.same y = true) xs ys := by
  induction xs generalizing ys with
  | nil => cases ys <;> simp [sameAll]
  | cons x xs ih => cases ys <;> simp [sameAll, ih]

theorem includedIn_iff (ys xs : List Key) :
    includedIn ys xs = true ↔ ∀ x ∈ xs, ∃ y ∈ ys, x.same y = true := by
  induction xs with
  | nil => simp [includedIn]
  | cons x xs ih => simp [includedIn, ih]

theorem same_bag_iff (xs ys : List Key) :
    (bag xs).same (bag ys) = true ↔
      xs.length = ys.length ∧ ∀ x ∈ xs, ∃ y ∈ ys, x.same y = true := by
  simp [same, includedIn_iff]

theorem same_tuple_iff (xs ys : List Key) :
    (tuple xs).same (tuple ys) = true ↔ List.Forall₂ (fun x y => x.same y = true) xs ys := by
  simp [same, sameAll_iff]

theorem isIn_iff (k : Key) (ks : List Key) : k.isIn ks = true ↔ ∃ l ∈ ks, k.same l = true := by
  simp [isIn]

@[simp] theorem same_self (k : Key) : k.same k = true := by
  induction k using Key.induction with
  | atom a => simp [same, Atom.same_iff]
  | tuple items ih =>
      rw [same_tuple_iff, List.forall₂_same]
      exact ih
  | bag items ih =>
      rw [same_bag_iff]
      exact ⟨rfl, fun x hx => ⟨x, hx, ih x hx⟩⟩

theorem forall₂_same_trans {xs ys zs : List Key}
    (ih : ∀ x ∈ xs, ∀ y z, x.same y = true → y.same z = true → x.same z = true)
    (hxy : List.Forall₂ (fun x y => x.same y = true) xs ys)
    (hyz : List.Forall₂ (fun y z => y.same z = true) ys zs) :
    List.Forall₂ (fun x z => x.same z = true) xs zs := by
  induction hxy generalizing zs with
  | nil =>
      cases hyz
      exact .nil
  | @cons x y xs ys h hs ih' =>
      cases hyz with
      | cons h' hs' =>
          refine .cons (ih x List.mem_cons_self y _ h h') (ih' ?_ hs')
          exact fun x' hx' => ih x' (List.mem_cons_of_mem x hx')

theorem same_trans {k l m : Key} (hkl : k.same l = true) (hlm : l.same m = true) :
    k.same m = true := by
  induction k using Key.induction generalizing l m with
  | atom a =>
      cases l <;> cases m <;> simp_all [same, Atom.same_iff]
  | tuple xs ih =>
      cases l with
      | tuple ys =>
          cases m with
          | tuple zs =>
              rw [same_tuple_iff] at hkl hlm ⊢
              exact forall₂_same_trans (fun x hx y z h h' => ih x hx h h') hkl hlm
          | _ => simp [same] at hlm
      | _ => simp [same] at hkl
  | bag xs ih =>
      cases l with
      | bag ys =>
          cases m with
          | bag zs =>
              rw [same_bag_iff] at hkl hlm ⊢
              refine ⟨hkl.1.trans hlm.1, fun x hx => ?_⟩
              obtain ⟨y, hy, hxy⟩ := hkl.2 x hx
              obtain ⟨z, hz, hyz⟩ := hlm.2 y hy
              exact ⟨z, hz, ih x hx hxy hyz⟩
          | _ => simp [same] at hlm
      | _ => simp [same] at hkl

mutual

/-- No bag inside the key holds a key twice. -/
def WellFormed : Key → Prop
  | .atom _ => True
  | .tuple items => AllWellFormed items
  | .bag items => AllWellFormed items ∧ items.Pairwise fun k l => l.same k = false

/-- No bag inside any of the keys holds a key twice. -/
def AllWellFormed : List Key → Prop
  | [] => True
  | k :: ks => WellFormed k ∧ AllWellFormed ks

end

theorem allWellFormed_iff (ks : List Key) : AllWellFormed ks ↔ ∀ k ∈ ks, k.WellFormed := by
  induction ks with
  | nil => simp [AllWellFormed]
  | cons k ks ih => simp [AllWellFormed, ih]

theorem wellFormed_tuple_iff (items : List Key) :
    (tuple items).WellFormed ↔ ∀ k ∈ items, k.WellFormed := by
  rw [WellFormed, allWellFormed_iff]

theorem wellFormed_bag_iff (items : List Key) :
    (bag items).WellFormed ↔
      (∀ k ∈ items, k.WellFormed) ∧ items.Pairwise fun k l => l.same k = false := by
  rw [WellFormed, allWellFormed_iff]

/-- A relation that gives every `x` a partner, and no two of them the same one, takes its
partners out of `ys`. -/
theorem exists_partners {R : Key → Key → Prop} {xs ys : List Key}
    (htotal : ∀ x ∈ xs, ∃ y ∈ ys, R x y)
    (hinj : xs.Pairwise fun x x' => ∀ y, R x y → ¬ R x' y) :
    ∃ partner : Key → Key, (∀ x ∈ xs, R x (partner x)) ∧ (xs.map partner).Subperm ys := by
  choose! partner hmem hpartner using htotal
  have hnodup : (xs.map partner).Nodup := by
    rw [List.Nodup, List.pairwise_map]
    refine hinj.imp_of_mem fun {x x'} hx hx' hne heq => ?_
    exact hne (partner x) (hpartner x hx) (heq ▸ hpartner x' hx')
  have hsubset : xs.map partner ⊆ ys := List.forall_mem_map.mpr hmem
  exact ⟨partner, hpartner, List.subperm_of_subset hnodup hsubset⟩

theorem length_le_of_partners {R : Key → Key → Prop} {xs ys : List Key}
    (htotal : ∀ x ∈ xs, ∃ y ∈ ys, R x y)
    (hinj : xs.Pairwise fun x x' => ∀ y, R x y → ¬ R x' y) : xs.length ≤ ys.length := by
  obtain ⟨partner, -, hsubperm⟩ := exists_partners htotal hinj
  simpa using hsubperm.length_le

/-- A relation between lists of one length that gives every `x` a partner and no
two of them the same one gives every `y` a partner too. -/
theorem exists_partner {R : Key → Key → Prop} {xs ys : List Key} (hlen : xs.length = ys.length)
    (htotal : ∀ x ∈ xs, ∃ y ∈ ys, R x y)
    (hinj : xs.Pairwise fun x x' => ∀ y, R x y → ¬ R x' y) :
    ∀ y ∈ ys, ∃ x ∈ xs, R x y := by
  intro y hy
  obtain ⟨partner, hpartner, hsubperm⟩ := exists_partners htotal hinj
  -- as many partners as there are members: every `y` is one of them
  have hperm := hsubperm.perm_of_length_le (by simp [hlen])
  obtain ⟨x, hx, rfl⟩ := List.mem_map.mp (hperm.mem_iff.mpr hy)
  exact ⟨x, hx, hpartner x hx⟩

theorem forall₂_same_symm {xs ys : List Key}
    (ih : ∀ x ∈ xs, ∀ y, x.same y = true → y.same x = true)
    (h : List.Forall₂ (fun x y => x.same y = true) xs ys) :
    List.Forall₂ (fun y x => y.same x = true) ys xs := by
  induction h with
  | nil => exact .nil
  | @cons x y xs ys h hs ih' =>
      exact .cons (ih x List.mem_cons_self y h)
        (ih' fun x' hx' => ih x' (List.mem_cons_of_mem x hx'))

theorem same_symm {k l : Key} (hk : k.WellFormed) (h : k.same l = true) : l.same k = true := by
  induction k using Key.induction generalizing l with
  | atom a => cases l <;> simp_all [same, Atom.same_iff]
  | tuple xs ih =>
      cases l with
      | tuple ys =>
          rw [wellFormed_tuple_iff] at hk
          rw [same_tuple_iff] at h ⊢
          exact forall₂_same_symm (fun x hx y hxy => ih x hx (hk x hx) hxy) h
      | _ => simp [same] at h
  | bag xs ih =>
      cases l with
      | bag ys =>
          rw [wellFormed_bag_iff] at hk
          rw [same_bag_iff] at h ⊢
          have hinj : xs.Pairwise fun x x' => ∀ y, x.same y = true → ¬ x'.same y = true := by
            refine hk.2.imp_of_mem fun {x x'} hx _ hne y hxy hxy' => ?_
            have hyx : y.same x = true := ih x hx (hk.1 x hx) hxy
            rw [same_trans hxy' hyx] at hne
            cases hne
          refine ⟨h.1.symm, fun y hy => ?_⟩
          obtain ⟨x, hx, hxy⟩ := exists_partner h.1 h.2 hinj y hy
          exact ⟨x, hx, ih x hx (hk.1 x hx) hxy⟩
      | _ => simp [same] at h

theorem sameKind_self (k : Key) : k.sameKind k = true := by
  cases k with
  | atom a => exact a.sameKind_self
  | _ => rfl

/-- A key is found under itself, unless it is the float that is not a number. -/
theorem equal_self {k : Key} (h : k.isNaN = false) : k.equal k = true := by
  simp [equal, h]

/-- An atom that is neither a number nor a truth value is the same key as itself
only. -/
theorem atom_same_iff {a : Atom} (ha : a.numeric? = none) (k : Key) :
    (atom a).same k = true ↔ k = atom a := by
  cases k with
  | atom b =>
      cases hb : b.numeric? with
      | none =>
          have hsame : a.same b = (a == b) := by simp [Atom.same, ha, hb]
          simp only [same, hsame, beq_iff_eq, atom.injEq]
          exact eq_comm
      | some n =>
          have hne : b ≠ a := fun h => by simp [h, ha] at hb
          simp [same, Atom.same, ha, hb, hne]
  | _ => simp [same]

theorem symbol_same_iff (name : Text) (k : Key) :
    (symbol name).same k = true ↔ k = symbol name :=
  atom_same_iff rfl k

/-- What is found under a key stands under a key that is the same. -/
theorem mem_of_lookup? {α : Type} {k : Key} {entries : List (Key × α)} {a : α}
    (h : lookup? k entries = some a) : ∃ l, k.same l = true ∧ (l, a) ∈ entries := by
  induction entries with
  | nil => cases h
  | cons e entries ih =>
      obtain ⟨l, b⟩ := e
      rw [lookup?_cons] at h
      split at h
      · rename_i hkl
        cases h
        exact ⟨l, hkl, List.mem_cons_self⟩
      · obtain ⟨m, hm, hmem⟩ := ih h
        exact ⟨m, hm, List.mem_cons_of_mem _ hmem⟩

theorem mem_of_lookup?_symbol {α : Type} {name : Text} {entries : List (Key × α)} {a : α}
    (h : lookup? (symbol name) entries = some a) : (symbol name, a) ∈ entries := by
  obtain ⟨l, hl, hmem⟩ := mem_of_lookup? h
  rw [symbol_same_iff] at hl
  exact hl ▸ hmem

theorem keyword_same_iff (name : Text) (k : Key) :
    (keyword name).same k = true ↔ k = keyword name :=
  atom_same_iff rfl k

theorem same_keyword_iff (name : Text) (k : Key) :
    k.same (keyword name) = true ↔ k = keyword name := by
  cases k with
  | atom a => cases a <;> simp [same, Atom.same_iff, Atom.standing, Atom.numeric?, keyword]
  | _ => simp [same, keyword]

theorem mem_of_lookup?_keyword {α : Type} {name : Text} {entries : List (Key × α)} {a : α}
    (h : lookup? (keyword name) entries = some a) : (keyword name, a) ∈ entries := by
  obtain ⟨l, hl, hmem⟩ := mem_of_lookup? h
  rw [keyword_same_iff] at hl
  exact hl ▸ hmem

theorem lookup?_isSome_of_same {α : Type} {k l : Key} {entries : List (Key × α)} {a : α}
    (h : (l, a) ∈ entries) (hkl : k.same l = true) : (lookup? k entries).isSome = true := by
  induction entries with
  | nil => cases h
  | cons e entries ih =>
      rw [lookup?_cons]
      split
      · rfl
      · rename_i hne
        rcases List.mem_cons.mp h with rfl | h
        · exact absurd hkl hne
        · exact ih h

theorem lookup?_isSome_of_mem {α : Type} {k : Key} {entries : List (Key × α)} {a : α}
    (h : (k, a) ∈ entries) : (lookup? k entries).isSome = true :=
  lookup?_isSome_of_same h (same_self k)

theorem eq_symbol_of_symbol? {k : Key} {name : Text} (h : k.symbol? = some name) :
    k = symbol name := by
  unfold symbol? at h
  split at h
  · cases h
    rfl
  · cases h

theorem isSome_keyword?_iff (k : Key) : k.keyword?.isSome = true ↔ ∃ name, k = keyword name := by
  unfold keyword?
  split <;> simp_all [keyword]

theorem mem_distinctFrom {seen ks : List Key} {k : Key} (h : k ∈ distinctFrom seen ks) :
    k ∈ ks ∧ k.isIn seen = false := by
  induction ks generalizing seen with
  | nil => simp [distinctFrom] at h
  | cons l ks ih =>
      rw [distinctFrom] at h
      split at h
      · exact ⟨List.mem_cons_of_mem l (ih h).1, (ih h).2⟩
      · rename_i hl
        rcases List.mem_cons.mp h with rfl | h
        · exact ⟨List.mem_cons_self, by simpa using hl⟩
        · obtain ⟨hmem, hout⟩ := ih h
          refine ⟨List.mem_cons_of_mem l hmem, ?_⟩
          simp only [isIn, List.any_append, Bool.or_eq_false_iff] at hout ⊢
          exact hout.1

theorem pairwise_distinctFrom (seen ks : List Key) :
    (distinctFrom seen ks).Pairwise fun k l => l.same k = false := by
  induction ks generalizing seen with
  | nil => exact List.Pairwise.nil
  | cons k ks ih =>
      rw [distinctFrom]
      split
      · exact ih seen
      · refine List.pairwise_cons.mpr ⟨fun l hl => ?_, ih (seen ++ [k])⟩
        have hout := (mem_distinctFrom hl).2
        simp only [isIn, List.any_append, Bool.or_eq_false_iff] at hout
        simpa using hout.2

/-- The bag of the first occurrences of well-formed keys is well-formed. -/
theorem wellFormed_bag_distinct {ks : List Key} (h : ∀ k ∈ ks, k.WellFormed) :
    (bag (distinct ks)).WellFormed :=
  (wellFormed_bag_iff _).mpr
    ⟨fun k hk => h k (mem_distinctFrom hk).1, pairwise_distinctFrom [] ks⟩

/-- A kept entry stands among the entries, and no entry before it has the same
key: an entry that was itself dropped repeats one before it. -/
theorem mem_distinctEntriesFrom {α : Type} {seen : List Key} {entries : List (Key × α)}
    {k : Key} {a : α} (h : (k, a) ∈ distinctEntriesFrom seen entries) :
    k.isIn seen = false ∧
      ∃ before after, entries = before ++ (k, a) :: after ∧
        ∀ e ∈ before, k.same e.1 = false := by
  induction entries generalizing seen with
  | nil => simp [distinctEntriesFrom] at h
  | cons e entries ih =>
      obtain ⟨l, b⟩ := e
      rw [distinctEntriesFrom] at h
      split at h
      · rename_i hl
        obtain ⟨hout, before, after, rfl, hbefore⟩ := ih h
        refine ⟨hout, (l, b) :: before, after, rfl, List.forall_mem_cons.mpr ⟨?_, hbefore⟩⟩
        obtain ⟨m, hm, hlm⟩ := (isIn_iff l seen).mp hl
        -- `k` would repeat `m` through `l`
        by_contra hkl
        have hkm : k.isIn seen = true :=
          (isIn_iff k seen).mpr ⟨m, hm, same_trans (by simpa using hkl) hlm⟩
        rw [hkm] at hout
        cases hout
      · rename_i hl
        rcases List.mem_cons.mp h with heq | h
        · cases heq
          exact ⟨by simpa using hl, [], entries, rfl, by simp⟩
        · obtain ⟨hout, before, after, rfl, hbefore⟩ := ih h
          simp only [isIn, List.any_append, Bool.or_eq_false_iff] at hout
          refine ⟨hout.1, (l, b) :: before, after, rfl, List.forall_mem_cons.mpr ⟨?_, hbefore⟩⟩
          simpa using hout.2

/-- An entry that is not kept repeats one that is, or one before them all. -/
theorem exists_mem_distinctEntriesFrom {α : Type} (seen : List Key) {entries : List (Key × α)}
    {k : Key} {a : α} (h : (k, a) ∈ entries) :
    k.isIn seen = true ∨ ∃ e ∈ distinctEntriesFrom seen entries, k.same e.1 = true := by
  induction entries generalizing seen with
  | nil => cases h
  | cons e entries ih =>
      obtain ⟨l, b⟩ := e
      rw [distinctEntriesFrom]
      rcases List.mem_cons.mp h with heq | h
      · cases heq
        split
        · exact Or.inl (by assumption)
        · exact Or.inr ⟨(k, a), List.mem_cons_self, same_self k⟩
      · split
        · exact ih seen h
        · rcases ih (seen ++ [l]) h with hseen | ⟨e, he, hke⟩
          · obtain ⟨m, hm, hkm⟩ := (isIn_iff _ _).mp hseen
            rcases List.mem_append.mp hm with hm | hm
            · exact Or.inl ((isIn_iff _ _).mpr ⟨m, hm, hkm⟩)
            · rw [List.mem_singleton.mp hm] at hkm
              exact Or.inr ⟨(l, b), List.mem_cons_self, hkm⟩
          · exact Or.inr ⟨e, List.mem_cons_of_mem _ he, hke⟩

end Key

namespace Datum

variable {entries : List (Key × Datum)} {name : Text}

theorem ofKeys_eq_map (ks : List Key) : ofKeys ks = ks.map ofKey := by
  induction ks with
  | nil => rfl
  | cons k ks ih => rw [ofKeys, ih, List.map_cons]

theorem mem_ofKeys_iff {ks : List Key} {d : Datum} : d ∈ ofKeys ks ↔ ∃ k ∈ ks, ofKey k = d := by
  rw [ofKeys_eq_map, List.mem_map]

/-- A field that is anything but nil is there. -/
theorem field?_of_field {d : Datum} (h : field entries name = d) (hd : d ≠ .nil) :
    field? entries name = some d := by
  unfold field at h
  cases hfield : field? entries name with
  | none => simp_all
  | some d' => simp_all

end Datum

end EdnLint
