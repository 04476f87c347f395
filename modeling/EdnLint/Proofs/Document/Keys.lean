import EdnLint.Proofs.Datum.Equality
import EdnLint.Proofs.Document.Decidable
import EdnLint.Proofs.Document.Parts
import EdnLint.Proofs.Document.Printing

/-!
# Forms as keys and as data

A form is read twice: as a datum where it is a value, and as a key where it is a member of
a set or the key of an entry. The key of a form is the datum's own key
(`Node.toKey_same_freeze_iff`) unless a map of it conflicts: the datum keeps the first value
written under a key, and the key takes them all.

So where no map conflicts, two forms are one key exactly if they read as equal data, apart
from a map taken for a set (`Node.toKey_faithful`), and a literal keeps all that is written
in it exactly if no two of its keys read as equal data.
-/

namespace EdnLint

open Grammar

namespace Key

/-- A key that is not kept repeats one that is, or one before them all. -/
theorem exists_mem_distinctFrom (seen : List Key) {ks : List Key} {k : Key} (h : k ∈ ks) :
    k.isIn seen = true ∨ ∃ l ∈ distinctFrom seen ks, k.same l = true := by
  induction ks generalizing seen with
  | nil => cases h
  | cons l ks ih =>
      rw [distinctFrom]
      rcases List.mem_cons.mp h with rfl | h
      · split
        · exact Or.inl (by assumption)
        · exact Or.inr ⟨k, List.mem_cons_self, same_self k⟩
      · split
        · exact ih seen h
        · rcases ih (seen ++ [l]) h with hseen | ⟨m, hm, hkm⟩
          · simp only [isIn, List.any_append, List.any_cons, List.any_nil, Bool.or_false,
              Bool.or_eq_true] at hseen
            apply hseen.imp id
            intro hkl
            exact ⟨l, List.mem_cons_self, hkl⟩
          · exact Or.inr ⟨m, List.mem_cons_of_mem l hm, hkm⟩

theorem pairwise_distinctEntriesFrom {α : Type} (seen : List Key) (entries : List (Key × α)) :
    (distinctEntriesFrom seen entries).Pairwise fun e f => f.1.same e.1 = false := by
  induction entries generalizing seen with
  | nil => exact List.Pairwise.nil
  | cons e entries ih =>
      obtain ⟨k, a⟩ := e
      rw [distinctEntriesFrom]
      split
      · exact ih seen
      · rw [List.pairwise_cons]
        refine ⟨fun f hf => ?_, ih (seen ++ [k])⟩
        have hout := (mem_distinctEntriesFrom hf).1
        simp only [isIn, List.any_append, Bool.or_eq_false_iff] at hout
        simpa using hout.2

theorem mem_of_mem_distinctEntries {α : Type} {entries : List (Key × α)} {e : Key × α}
    (h : e ∈ distinctEntries entries) : e ∈ entries := by
  obtain ⟨-, before, after, hsplit, -⟩ := mem_distinctEntriesFrom h
  rw [hsplit]
  exact List.mem_append_right before List.mem_cons_self

theorem lookup?_distinctEntries {α : Type} {k l : Key} {entries : List (Key × α)} {a : α}
    (hk : k.WellFormed) (hmem : (l, a) ∈ distinctEntries entries) (hkl : k.same l = true) :
    lookup? k (distinctEntries entries) = some a :=
  lookup?_of_mem hk (pairwise_distinctEntriesFrom [] entries) hmem hkl

theorem distinctEntriesFrom_map {α β : Type} (f : α → β) (seen : List Key)
    (entries : List (Key × α)) :
    distinctEntriesFrom seen (entries.map fun e => (e.1, f e.2)) =
      (distinctEntriesFrom seen entries).map fun e => (e.1, f e.2) := by
  induction entries generalizing seen with
  | nil => rfl
  | cons e entries ih =>
      rw [List.map_cons, distinctEntriesFrom, distinctEntriesFrom, ih, ih]
      split <;> rfl

/-- Where a key decides the value, the different pairs of a key and a value are those of the
first entries. -/
theorem distinctFrom_pairs {α : Type} (f : α → Key) (seen entries : List (Key × α))
    (h : ∀ e ∈ entries, ∀ e' ∈ seen ++ entries, e.1.same e'.1 = true →
      (f e.2).same (f e'.2) = true) :
    distinctFrom (seen.map fun e => .tuple [e.1, f e.2])
        (entries.map fun e => .tuple [e.1, f e.2]) =
      (distinctEntriesFrom (seen.map (·.1)) entries).map fun e => .tuple [e.1, f e.2] := by
  induction entries generalizing seen with
  | nil => rfl
  | cons e entries ih =>
      rw [List.forall_mem_cons] at h
      have hisIn : (tuple [e.1, f e.2]).isIn (seen.map fun e => .tuple [e.1, f e.2]) =
          e.1.isIn (seen.map (·.1)) := by
        rw [Bool.eq_iff_iff, isIn_iff, isIn_iff]
        constructor
        · rintro ⟨_, hmem, hsame⟩
          obtain ⟨e', he', rfl⟩ := List.mem_map.mp hmem
          exact ⟨e'.1, List.mem_map_of_mem he', ((same_pair_iff _ _ _ _).mp hsame).1⟩
        · rintro ⟨_, hmem, hsame⟩
          obtain ⟨e', he', rfl⟩ := List.mem_map.mp hmem
          have hvalue := h.1 e' (List.mem_append_left _ he') hsame
          exact ⟨_, List.mem_map_of_mem he', (same_pair_iff _ _ _ _).mpr ⟨hsame, hvalue⟩⟩
      rw [List.map_cons, distinctFrom, distinctEntriesFrom, hisIn]
      split
      · apply ih
        intro e₁ h₁ e₂ h₂
        apply h.2 e₁ h₁ e₂
        rw [List.mem_append, List.mem_cons]
        exact (List.mem_append.mp h₂).imp id Or.inr
      · have hrest := ih (seen ++ [e]) (by simpa using h.2)
        rw [List.map_append, List.map_append] at hrest
        exact congrArg _ hrest

theorem distinct_eq_self_iff (ks : List Key) :
    distinct ks = ks ↔ ks.Pairwise fun k l => l.same k = false := by
  constructor
  · intro h
    rw [← h]
    exact pairwise_distinctFrom [] ks
  · exact distinctFrom_eq_self (by simp [isIn])

theorem distinctEntries_eq_self_iff {α : Type} (entries : List (Key × α)) :
    distinctEntries entries = entries ↔
      entries.Pairwise fun e f => f.1.same e.1 = false := by
  constructor
  · intro h
    rw [← h]
    exact pairwise_distinctEntriesFrom [] entries
  · exact distinctEntriesFrom_eq_self (by simp [isIn])

end Key

namespace Node

/-- A form that the reader builds out of some text. -/
def IsRead (n : Node) : Prop := ∃ t tree, parse t = .ok tree ∧ n.Inside tree

/-- A form as the reader builds it: every wrapper has a form that it wraps, and no document is
inside. What a set has inside is only read as keys. -/
inductive Filled : Node → Prop
  | scalar (a : Atom) (start stop : Position) (forms : List Node) :
      Filled (.mk (.scalar a) start stop forms)
  | sequence {shape : Shape} {start stop : Position} {forms : List Node} :
      shape = .vector ∨ shape = .list → (∀ n ∈ forms, Filled n) →
      Filled (.mk shape start stop forms)
  | set (start stop : Position) (forms : List Node) : Filled (.mk .set start stop forms)
  | map {start stop : Position} {forms : List Node} :
      (∀ n ∈ forms, Filled n) → Filled (.mk .map start stop forms)
  | wrapper {shape : Shape} {start stop : Position} {forms : List Node} {n : Node} :
      shape.isWrapper = true → Filled n → Filled (.mk shape start stop (forms ++ [n]))

theorem shape_of_derives {p : Position} {s rest : Text} {n : Node}
    (h : Derives .form p s rest [n]) :
    n.shape ≠ .document ∧ (n.shape.isWrapper = true → n.forms ≠ []) := by
  cases h with
  | collection hbrackets _ => cases hbrackets <;> simp [spanning, Shape.isWrapper]
  | _ => simp [spanning, Shape.isWrapper]

theorem filled_of_occurs {p : Position} {t : Text} {n : Node} (h : Occurs p t n) :
    n.Filled := by
  induction n using Node.induction with
  | mk shape start stop forms ih =>
      have hforms : ∀ m ∈ forms, m.Filled := by
        intro m hm
        have hinside : m.Inside (.mk shape start stop forms) := .form hm
        exact ih m hm (h.inside hinside)
      obtain ⟨_, _, _, -, hn⟩ := h
      obtain ⟨hdocument, hwrapper⟩ := shape_of_derives hn
      cases shape with
      | document => exact absurd rfl hdocument
      | scalar a => exact .scalar a start stop forms
      | vector => exact .sequence (Or.inl rfl) hforms
      | list => exact .sequence (Or.inr rfl) hforms
      | set => exact .set start stop forms
      | map => exact .map hforms
      | _ =>
          rcases List.eq_nil_or_concat forms with rfl | ⟨before, last, rfl⟩
          · exact absurd rfl (hwrapper rfl)
          · rw [List.concat_eq_append] at hforms ⊢
            exact .wrapper rfl (hforms last (by simp))

theorem IsRead.filled {n : Node} (h : n.IsRead) : n.Filled := by
  obtain ⟨t, tree, hp, hn⟩ := h
  exact filled_of_occurs (occurs_of_parse hp hn)

/-- A map of the form gives one key two values that are different keys. Of the values that
stand under a key only the first belongs to the datum. -/
inductive Conflicts : Node → Prop
  | entry {start stop : Position} {forms : List Node} {k l : Key} {v w : Node} :
      (k, v) ∈ entries forms → (l, w) ∈ entries forms → k.same l = true →
      v.toKey.same w.toKey = false → Conflicts (.mk .map start stop forms)
  | value {start stop : Position} {forms : List Node} {k : Key} {v : Node} :
      (k, v) ∈ Key.distinctEntries (entries forms) → Conflicts v →
      Conflicts (.mk .map start stop forms)
  | item {shape : Shape} {start stop : Position} {forms : List Node} {n : Node} :
      shape = .vector ∨ shape = .list → n ∈ forms → Conflicts n →
      Conflicts (.mk shape start stop forms)
  | wrapped {shape : Shape} {start stop : Position} {forms : List Node} {n : Node} :
      shape.isWrapper = true → Conflicts n → Conflicts (.mk shape start stop (forms ++ [n]))

section

variable {shape : Shape} (start stop : Position) (forms : List Node)

theorem toKey_sequence (h : shape = .vector ∨ shape = .list) :
    (mk shape start stop forms).toKey = .tuple (forms.map toKey) := by
  rw [← toKeys_eq_map]
  rcases h with rfl | rfl <;> rfl

theorem toDatum_sequence (h : shape = .vector ∨ shape = .list) :
    (mk shape start stop forms).toDatum = .vector (forms.map toDatum) := by
  rw [← toData_eq_map]
  rcases h with rfl | rfl <;> rfl

/-- A map says the first value under each key. -/
theorem toDatum_map :
    (mk .map start stop forms).toDatum =
      .map ((Key.distinctEntries (entries forms)).map fun e => (e.1, e.2.toDatum)) := by
  rw [toDatum, entryData_eq_map, Key.distinctEntries, Key.distinctEntriesFrom_map]
  rfl

theorem toKey_wrapper_append (h : shape.isWrapper = true) (n : Node) :
    (mk shape start stop (forms ++ [n])).toKey = n.toKey := by
  rw [toKey_wrapper start stop _ h, lastKey_append]

theorem toDatum_wrapper_append (h : shape.isWrapper = true) (n : Node) :
    (mk shape start stop (forms ++ [n])).toDatum = n.toDatum := by
  rw [toDatum_wrapper start stop _ h, lastDatum_append]

end

theorem wellFormed_of_mem_entries {forms : List Node} {e : Key × Node}
    (h : e ∈ entries forms) : e.1.WellFormed := by
  obtain ⟨-, m, -, hm⟩ := mem_entries h
  rw [← hm]
  exact m.toKey_wellFormed

theorem Filled.toDatum_wellFormed {n : Node} (hn : n.Filled) : n.toDatum.WellFormed := by
  induction hn with
  | scalar a => exact .atom a
  | sequence hshape _ ih =>
      rw [toDatum_sequence _ _ _ hshape]
      exact .vector (List.forall_mem_map.mpr ih)
  | set start stop forms =>
      have hset := (mk .set start stop forms).toKey_wellFormed
      exact .set hset
  | @map start stop forms _ ih =>
      rw [toDatum_map]
      refine .map ?_ ?_ ?_
      · intro e he
        obtain ⟨f, hf, rfl⟩ := List.mem_map.mp he
        exact wellFormed_of_mem_entries (Key.mem_of_mem_distinctEntries hf)
      · rw [List.pairwise_map]
        exact Key.pairwise_distinctEntriesFrom [] (entries forms)
      · intro e he
        obtain ⟨f, hf, rfl⟩ := List.mem_map.mp he
        exact ih f.2 (mem_entries (Key.mem_of_mem_distinctEntries hf)).1
  | wrapper hshape _ ih =>
      rw [toDatum_wrapper_append _ _ _ hshape]
      exact ih

/-- The key of a form without conflicts is the key of its datum. -/
theorem Filled.toKey_eq_freeze {n : Node} (hn : n.Filled) (h : ¬ n.Conflicts) :
    n.toKey = n.toDatum.freeze := by
  induction hn with
  | scalar a => rfl
  | set => rfl
  | sequence hshape _ ih =>
      rw [toKey_sequence _ _ _ hshape, toDatum_sequence _ _ _ hshape, Datum.freeze_vector,
        List.map_map]
      refine congrArg Key.tuple (List.map_congr_left fun n hn => ih n hn ?_)
      exact fun hconflicts => h (.item hshape hn hconflicts)
  | @map start stop forms _ ih =>
      have hpairs := Key.distinctFrom_pairs toKey [] (entries forms) (by
        intro e he f hf hsame
        by_contra hne
        exact h (.entry he hf hsame (by simpa using hne)))
      rw [toDatum_map, Datum.freeze_map, toKey, entryKeys_eq_map, List.map_map]
      refine congrArg Key.bag (hpairs.trans (List.map_congr_left fun e he => ?_))
      have hvalue : e.2.toKey = e.2.toDatum.freeze := by
        apply ih e.2 (mem_entries (Key.mem_of_mem_distinctEntries he)).1
        intro hconflicts
        exact h (.value he hconflicts)
      simp [hvalue]
  | wrapper hshape _ ih =>
      rw [toKey_wrapper_append _ _ _ hshape, toDatum_wrapper_append _ _ _ hshape]
      apply ih
      intro hconflicts
      exact h (.wrapped hshape hconflicts)

/-- If a map has the key of its datum, every value written in it is the same key as the value
that the datum has there. -/
theorem exists_kept_of_same {start stop : Position} {forms : List Node}
    (h : (mk .map start stop forms).toKey.same (mk .map start stop forms).toDatum.freeze = true)
    {k : Key} {v : Node} (hv : (k, v) ∈ entries forms) :
    ∃ w, Key.lookup? k (Key.distinctEntries (entries forms)) = some w ∧
      v.toKey.same w.toDatum.freeze = true := by
  rw [toDatum_map, Datum.freeze_map, toKey, entryKeys_eq_map, Key.same_bag_iff] at h
  -- the pair of the key and the value, the one that the key keeps for it, and its entry
  have hpair := List.mem_map_of_mem (f := fun e : Key × Node => Key.tuple [e.1, e.2.toKey]) hv
  obtain hseen | ⟨kept, hkept, hsame⟩ := Key.exists_mem_distinctFrom [] hpair
  · cases hseen
  · obtain ⟨_, hfrozen, hsame'⟩ := h.2 kept hkept
    rw [List.map_map] at hfrozen
    obtain ⟨e, he, rfl⟩ := List.mem_map.mp hfrozen
    obtain ⟨hkey, hvalue⟩ := (Key.same_pair_iff _ _ _ _).mp (Key.same_trans hsame hsame')
    exact ⟨e.2, Key.lookup?_distinctEntries (wellFormed_of_mem_entries hv) he hkey, hvalue⟩

theorem not_same_freeze_of_conflicts {n : Node} (h : n.Conflicts) :
    ¬ n.toKey.same n.toDatum.freeze = true := by
  intro hsame
  induction h with
  | @entry start stop forms k l v w hv hw hkl hvw =>
      -- both values are the key of the one that is kept under their key
      obtain ⟨x, hx, hvx⟩ := exists_kept_of_same hsame hv
      obtain ⟨y, hy, hwy⟩ := exists_kept_of_same hsame hw
      obtain ⟨m, hlm, hm⟩ := Key.mem_of_lookup? hy
      rw [Key.lookup?_distinctEntries (wellFormed_of_mem_entries hv) hm
        (Key.same_trans hkl hlm), Option.some_inj] at hx
      rw [← hx] at hvx
      rw [Key.same_trans hvx (Key.same_symm w.toKey_wellFormed hwy)] at hvw
      cases hvw
  | @value start stop forms k v hv _ ih =>
      have hwritten := Key.mem_of_mem_distinctEntries hv
      obtain ⟨w, hw, hvw⟩ := exists_kept_of_same hsame hwritten
      rw [Key.lookup?_distinctEntries (wellFormed_of_mem_entries hwritten) hv
        (Key.same_self k), Option.some_inj] at hw
      rw [← hw] at hvw
      exact ih hvw
  | @item shape start stop forms n hshape hn _ ih =>
      rw [toKey_sequence _ _ _ hshape, toDatum_sequence _ _ _ hshape, Datum.freeze_vector,
        Key.same_tuple_iff, List.map_map, List.forall₂_map_left_iff, List.forall₂_map_right_iff,
        List.forall₂_same] at hsame
      exact ih (hsame n hn)
  | wrapped hshape _ ih =>
      rw [toKey_wrapper_append _ _ _ hshape, toDatum_wrapper_append _ _ _ hshape] at hsame
      exact ih hsame

/-- A form has the key of its datum exactly if no map of it conflicts. -/
theorem toKey_same_freeze_iff {n : Node} (hn : n.Filled) :
    n.toKey.same n.toDatum.freeze = true ↔ ¬ n.Conflicts := by
  constructor
  · intro h hconflicts
    exact not_same_freeze_of_conflicts hconflicts h
  · intro h
    rw [hn.toKey_eq_freeze h]
    exact Key.same_self _

/-- A form that the reader builds and in which no map conflicts. -/
structure Consistent (n : Node) : Prop where
  read : n.IsRead
  agrees : ¬ n.Conflicts

theorem Consistent.toKey_eq {n : Node} (h : n.Consistent) : n.toKey = n.toDatum.freeze :=
  h.read.filled.toKey_eq_freeze h.agrees

theorem Consistent.same_iff {a b : Node} (ha : a.Consistent) (hb : b.Consistent) :
    a.toDatum.same b.toDatum = true ↔
      a.toKey.same b.toKey = true ∧ ¬ a.toDatum.Confused b.toDatum := by
  rw [ha.toKey_eq, hb.toKey_eq]
  exact Datum.same_iff_freeze ha.read.filled.toDatum_wellFormed hb.read.filled.toDatum_wellFormed

theorem Consistent.equal_iff {a b : Node} (ha : a.Consistent) (hb : b.Consistent) :
    a.toDatum.equal b.toDatum = true ↔
      a.toKey.equal b.toKey = true ∧ ¬ a.toDatum.Confused b.toDatum := by
  have hnan : a.toKey.isNaN = a.toDatum.isNaN := by rw [ha.toKey_eq, Datum.isNaN_freeze]
  rw [Datum.equal, Key.equal, hnan, Bool.and_eq_true, Bool.and_eq_true, ha.same_iff hb]
  exact and_right_comm

/-- A form in which a map conflicts may be equal to one without conflicts as a datum, or as a
key, but not as both. -/
theorem Consistent.not_same_of_conflicts {a b : Node} (ha : a.Consistent) (hb : b.Conflicts)
    (hdatum : a.toDatum.same b.toDatum = true) : ¬ a.toKey.same b.toKey = true := by
  intro hkey
  apply not_same_freeze_of_conflicts hb
  have hfreeze := Datum.freeze_same_of_same hdatum
  rw [← ha.toKey_eq] at hfreeze
  exact Key.same_trans (Key.same_symm a.toKey_wellFormed hkey) hfreeze

section

variable {written : List (Node × Node)}

/-- Among keys of which no map is taken for a set, those that repeat a key are those that
repeat a datum. -/
theorem pairwise_same_iff (hkeys : ∀ e ∈ written, e.1.Consistent)
    (hconfused : written.Pairwise fun e f => ¬ f.1.toDatum.Confused e.1.toDatum) :
    (written.Pairwise fun e f => f.1.toKey.same e.1.toKey = false) ↔
      written.Pairwise fun e f => f.1.toDatum.same e.1.toDatum = false := by
  have hboth : written.Pairwise fun e f => (f.1.toKey.same e.1.toKey = false ↔
      f.1.toDatum.same e.1.toDatum = false) := by
    apply hconfused.imp_of_mem
    intro e f he hf hef
    have hsame := (hkeys f hf).same_iff (hkeys e he)
    rw [and_iff_left hef] at hsame
    rw [Bool.eq_false_iff, Bool.eq_false_iff, ne_eq, ne_eq, hsame]
  constructor
  · intro h
    exact (hboth.and h).imp fun hef => hef.1.mp hef.2
  · intro h
    exact (hboth.and h).imp fun hef => hef.1.mpr hef.2

theorem entryData_flatMap (written : List (Node × Node)) :
    entryData (written.flatMap fun e => [e.1, e.2]) =
      written.map fun e => (e.1.toKey, e.2.toDatum) := by
  induction written with
  | nil => rfl
  | cons e written ih => exact congrArg _ ih

/-- Forms without conflicts are equal data exactly if they are equal keys and no map is taken
for a set. A form with a conflict is equal to one without as a datum or as a key, but not as
both. Among keys of which no map is taken for a set, a set keeps all its members, and a map
all its entries, exactly if no two of them read as the same datum. -/
theorem toKey_faithful {a b : Node} (ha : a.IsRead) (hb : b.IsRead)
    (hkeys : ∀ e ∈ written, e.1.Consistent)
    (hconfused : written.Pairwise fun e f => ¬ f.1.toDatum.Confused e.1.toDatum)
    (start stop : Position) :
    (¬ a.Conflicts → ¬ b.Conflicts →
      (a.toDatum.equal b.toDatum = true ↔
        a.toKey.equal b.toKey = true ∧ ¬ a.toDatum.Confused b.toDatum)) ∧
    (¬ a.Conflicts → b.Conflicts →
      ¬ (a.toDatum.equal b.toDatum = true ∧ a.toKey.equal b.toKey = true)) ∧
    ((mk .set start stop (written.map Prod.fst)).toDatum =
        .set (written.map fun e => e.1.toKey) ↔
      written.Pairwise fun e f => f.1.toDatum.same e.1.toDatum = false) ∧
    ((mk .map start stop (written.flatMap fun e => [e.1, e.2])).toDatum =
        .map (written.map fun e => (e.1.toKey, e.2.toDatum)) ↔
      written.Pairwise fun e f => f.1.toDatum.same e.1.toDatum = false) := by
  refine ⟨fun ha' hb' => Consistent.equal_iff ⟨ha, ha'⟩ ⟨hb, hb'⟩, ?_, ?_, ?_⟩
  · rintro ha' hb' ⟨hdatum, hkey⟩
    rw [Datum.equal, Bool.and_eq_true] at hdatum
    rw [Key.equal, Bool.and_eq_true] at hkey
    exact Consistent.not_same_of_conflicts ⟨ha, ha'⟩ hb' hdatum.1 hkey.1
  · rw [← pairwise_same_iff hkeys hconfused, toDatum, Datum.set.injEq, toKeys_eq_map,
      List.map_map]
    change Key.distinct (written.map fun e => e.1.toKey) = _ ↔ _
    rw [Key.distinct_eq_self_iff, List.pairwise_map]
  · rw [← pairwise_same_iff hkeys hconfused, toDatum, Datum.map.injEq, entryData_flatMap,
      Key.distinctEntries_eq_self_iff, List.pairwise_map]

end

/-- Two maps that are written differently are equal data, so they are one key, and a map of
both loses the second. -/
theorem toKey_faithful_nested :
    let one : Node := .mk (.scalar (.number (.int 1))) ⟨1, 2, 1⟩ ⟨1, 3, 2⟩ []
    let two : Node := .mk (.scalar (.number (.int 2))) ⟨1, 5, 4⟩ ⟨1, 6, 5⟩ []
    let a : Node := .mk .map ⟨1, 1, 0⟩ ⟨1, 8, 7⟩ [one, .mk .vector ⟨1, 4, 3⟩ ⟨1, 7, 6⟩ [two]]
    let yes : Node := .mk (.scalar (.bool true)) ⟨1, 10, 9⟩ ⟨1, 14, 13⟩ []
    let two' : Node := .mk (.scalar (.number (.int 2))) ⟨1, 16, 15⟩ ⟨1, 17, 16⟩ []
    let b : Node := .mk .map ⟨1, 9, 8⟩ ⟨1, 19, 18⟩ [yes, .mk .list ⟨1, 15, 14⟩ ⟨1, 18, 17⟩ [two']]
    parse "\x7b1 [2]\x7d \x7btrue (2)\x7d" = .ok (.mk .document ⟨1, 1, 0⟩ ⟨1, 19, 18⟩ [a, b]) ∧
      a.toDatum.equal b.toDatum = true ∧ a.toKey.equal b.toKey = true ∧
      (mk .map ⟨1, 1, 0⟩ ⟨1, 1, 0⟩ [a, one, b, two]).toDatum ≠
        .map [(a.toKey, one.toDatum), (b.toKey, two.toDatum)] := by
  intro one two a yes two' b
  have hp : parse "\x7b1 [2]\x7d \x7btrue (2)\x7d" =
      .ok (.mk .document ⟨1, 1, 0⟩ ⟨1, 19, 18⟩ [a, b]) := by decide +kernel
  have ha : a.IsRead := ⟨_, _, hp, .form (by simp)⟩
  have hb : b.IsRead := ⟨_, _, hp, .form (by simp)⟩
  have ha' : a.Consistent := ⟨ha, (toKey_same_freeze_iff ha.filled).mp (by decide +kernel)⟩
  have hb' : b.Consistent := ⟨hb, (toKey_same_freeze_iff hb.filled).mp (by decide +kernel)⟩
  have hkeys : ∀ e ∈ [(a, one), (b, two)], e.1.Consistent := by
    intro e he
    rcases List.mem_pair.mp he with rfl | rfl
    · exact ha'
    · exact hb'
  have hsame : b.toDatum.same a.toDatum = true := by decide +kernel
  have hconfused : ¬ b.toDatum.Confused a.toDatum :=
    Datum.not_confused_of_same hb.filled.toDatum_wellFormed ha.filled.toDatum_wellFormed hsame
  obtain ⟨hequal, -, -, hmap⟩ :=
    toKey_faithful ha hb hkeys (List.pairwise_pair.mpr hconfused) ⟨1, 1, 0⟩ ⟨1, 1, 0⟩
  have hdatum : a.toDatum.equal b.toDatum = true := by decide +kernel
  refine ⟨hp, hdatum, ((hequal ha'.agrees hb'.agrees).mp hdatum).1, ?_⟩
  intro hkept
  have hapart := hmap.mp hkept
  rw [List.pairwise_pair.mp hapart] at hsame
  cases hsame

/-- An empty map and an empty set are one key, though they are different data, and what a map
has a second time under a key makes its key another one, though its datum is the same. -/
theorem toKey_unfaithful :
    let letter (col : Nat) : Node :=
      .mk (.scalar (.keyword "a")) ⟨1, col, col - 1⟩ ⟨1, col + 2, col + 1⟩ []
    let number (n : Int) (col : Nat) : Node :=
      .mk (.scalar (.number (.int n))) ⟨1, col, col - 1⟩ ⟨1, col + 1, col⟩ []
    let a : Node := .mk .map ⟨1, 1, 0⟩ ⟨1, 3, 2⟩ []
    let b : Node := .mk .set ⟨1, 4, 3⟩ ⟨1, 7, 6⟩ []
    let c : Node := .mk .map ⟨1, 8, 7⟩ ⟨1, 19, 18⟩
      [letter 9, number 1 12, letter 14, number 2 17]
    let d : Node := .mk .map ⟨1, 20, 19⟩ ⟨1, 26, 25⟩ [letter 21, number 1 24]
    parse "\x7b\x7d #\x7b\x7d \x7b:a 1 :a 2\x7d \x7b:a 1\x7d" =
        .ok (.mk .document ⟨1, 1, 0⟩ ⟨1, 26, 25⟩ [a, b, c, d]) ∧
      a.toKey.equal b.toKey = true ∧ a.toDatum.equal b.toDatum = false ∧
      c.toKey.equal d.toKey = false ∧ c.toDatum.equal d.toDatum = true := by
  decide +kernel

end Node

end EdnLint
