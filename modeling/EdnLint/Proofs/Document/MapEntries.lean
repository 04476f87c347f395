import EdnLint.Proofs.Datum.Merging
import EdnLint.Proofs.Document.Keys
import Mathlib.Data.List.Sort

/-!
# The entries of a map

A map is read entry by entry, and an entry is dropped if one before it has the same key.
`Key.FirstEntries` says what is left without going through the entries: every key that is
written is there once, with the value of the first entry under it, and the keys stand in the
order in which they are first written.

These conditions leave no choice (`Key.FirstEntries.unique`). Two entries with the same key
have the same first entry, because being the same key is an equivalence, and the places of
the first entries then settle the order.
-/

namespace EdnLint

namespace Key

section

variable {α : Type}

/-- The place of the first entry under a key. -/
def place (written : List (Key × α)) (k : Key) : Nat := written.findIdx fun w => k.same w.1

/-- The entries `kept` are the first under each key that is written, in order. -/
structure FirstEntries (written kept : List (Key × α)) : Prop where
  /-- No two keys are the same. -/
  apart : kept.Pairwise fun e f => e.1.same f.1 = false ∧ f.1.same e.1 = false
  /-- An entry is the first that is written under its key. -/
  first : ∀ e ∈ kept, written[place written e.1]? = some e
  /-- The keys stand in the order of their first entries. -/
  ordered : kept.Pairwise fun e f => place written e.1 < place written f.1
  /-- Every entry that is written has its key among those that are kept. -/
  represented : ∀ w ∈ written, ∃ e ∈ kept, w.1.same e.1 = true

theorem place_cons_of_same {w : Key × α} {written : List (Key × α)} {k : Key}
    (h : k.same w.1 = true) : place (w :: written) k = 0 := by
  simp [place, List.findIdx_cons, h]

theorem place_cons_of_not_same {w : Key × α} {written : List (Key × α)} {k : Key}
    (h : k.same w.1 = false) : place (w :: written) k = place written k + 1 := by
  simp [place, List.findIdx_cons, h]

/-- Keys that are the same are first written at one place. -/
theorem place_congr (written : List (Key × α)) {k l : Key} (hk : k.WellFormed)
    (h : k.same l = true) : place written k = place written l := by
  have hsame : ∀ m, k.same m = l.same m := by
    intro m
    rw [Bool.eq_iff_iff]
    exact ⟨same_trans (same_symm hk h), same_trans h⟩
  simp only [place, hsame]

theorem isIn_append_self (seen : List Key) (k : Key) : k.isIn (seen ++ [k]) = true :=
  (isIn_iff _ _).mpr ⟨k, by simp, same_self k⟩

/-- An entry that is kept behind one whose key is known comes up one place later with it: it
is under another key, as it would be known itself. -/
theorem place_cons_of_mem {seen : List Key} {entries : List (Key × α)} {e w : Key × α}
    (he : e ∈ distinctEntriesFrom seen entries) (hw : w.1.isIn seen = true) :
    place (w :: entries) e.1 = place entries e.1 + 1 := by
  have hout := (mem_distinctEntriesFrom he).1
  obtain ⟨m, hm, hwm⟩ := (isIn_iff w.1 seen).mp hw
  apply place_cons_of_not_same
  by_contra hew
  have hin : e.1.isIn seen = true :=
    (isIn_iff _ _).mpr ⟨m, hm, same_trans (by simpa using hew) hwm⟩
  rw [hin] at hout
  cases hout

theorem getElem?_place_distinctEntriesFrom (seen : List Key) (entries : List (Key × α)) :
    ∀ e ∈ distinctEntriesFrom seen entries, entries[place entries e.1]? = some e := by
  induction entries generalizing seen with
  | nil => simp [distinctEntriesFrom]
  | cons w entries ih =>
      intro e he
      rw [distinctEntriesFrom] at he
      split at he
      · rename_i hw
        rw [place_cons_of_mem he hw]
        exact ih seen e he
      · rcases List.mem_cons.mp he with rfl | he
        · rw [place_cons_of_same (same_self w.1)]
          rfl
        · rw [place_cons_of_mem he (isIn_append_self seen w.1)]
          exact ih _ e he

theorem pairwise_place_distinctEntriesFrom (seen : List Key) (entries : List (Key × α)) :
    (distinctEntriesFrom seen entries).Pairwise fun e f =>
      place entries e.1 < place entries f.1 := by
  induction entries generalizing seen with
  | nil => exact List.Pairwise.nil
  | cons w entries ih =>
      -- in front of the rest, an entry moves the places of all that is kept there by one
      have hrest : ∀ seen : List Key, w.1.isIn seen = true →
          (distinctEntriesFrom seen entries).Pairwise fun e f =>
            place (w :: entries) e.1 < place (w :: entries) f.1 := by
        intro seen hw
        refine (ih seen).imp_of_mem fun {e f} he hf hlt => ?_
        rw [place_cons_of_mem he hw, place_cons_of_mem hf hw]
        exact Nat.succ_lt_succ hlt
      rw [distinctEntriesFrom]
      split
      · rename_i hw
        exact hrest seen hw
      · have hw := isIn_append_self seen w.1
        refine List.pairwise_cons.mpr ⟨fun e he => ?_, hrest _ hw⟩
        rw [place_cons_of_same (same_self w.1), place_cons_of_mem he hw]
        exact Nat.succ_pos _

/-- What is left without repeated keys are the first entries. -/
theorem firstEntries_distinctEntries {written : List (Key × α)}
    (h : ∀ w ∈ written, w.1.WellFormed) : FirstEntries written (distinctEntries written) where
  apart := by
    refine (pairwise_place_distinctEntriesFrom [] written).imp_of_mem fun {e f} he hf hlt => ?_
    have he' := h e (mem_of_mem_distinctEntries he)
    have hf' := h f (mem_of_mem_distinctEntries hf)
    -- keys that are the same would have their first entries at one place
    rw [Bool.eq_false_iff, Bool.eq_false_iff]
    exact ⟨fun hef => hlt.ne (place_congr written he' hef),
      fun hfe => hlt.ne' (place_congr written hf' hfe)⟩
  first := getElem?_place_distinctEntriesFrom [] written
  ordered := pairwise_place_distinctEntriesFrom [] written
  represented w hw := by
    rcases exists_mem_distinctEntriesFrom [] hw with hseen | hkept
    · cases hseen
    · exact hkept

theorem FirstEntries.subset {written xs ys : List (Key × α)}
    (h : ∀ w ∈ written, w.1.WellFormed) (hxs : FirstEntries written xs)
    (hys : FirstEntries written ys) : xs ⊆ ys := by
  intro e he
  have hwritten : e ∈ written := List.mem_of_getElem? (hxs.first e he)
  obtain ⟨f, hf, hef⟩ := hys.represented e hwritten
  have hfirst := hxs.first e he
  rw [place_congr written (h e hwritten) hef, hys.first f hf, Option.some_inj] at hfirst
  exact hfirst ▸ hf

/-- There is one way to keep the first entries. -/
theorem FirstEntries.unique {written xs ys : List (Key × α)}
    (h : ∀ w ∈ written, w.1.WellFormed) (hxs : FirstEntries written xs)
    (hys : FirstEntries written ys) : xs = ys := by
  let before (e f : Key × α) : Prop := place written e.1 < place written f.1
  have hirrefl : Std.Irrefl before := ⟨fun e => lt_irrefl (place written e.1)⟩
  have hantisymm : Std.Antisymm before := ⟨fun e f hef hfe => absurd hfe (lt_asymm hef)⟩
  exact List.Subset.antisymm_of_pairwise hxs.ordered hys.ordered (hxs.subset h hys)
    (hys.subset h hxs)

end

end Key

namespace Node

/-- The entries of a map are its forms two by two, as far as they go. -/
theorem getElem?_entries (forms : List Node) (i : Nat) :
    (entries forms)[i]? = (forms[2 * i]?).bind fun key =>
      (forms[2 * i + 1]?).map fun value => (key.toKey, value) := by
  fun_induction entries forms generalizing i with
  | case1 key value forms ih =>
      cases i with
      | zero => rfl
      | succ i => simpa [Nat.mul_add] using ih i
  | case2 forms h =>
      -- fewer than two forms are left, so there is none for a value
      have hshort : forms.length ≤ 1 := by
        rcases forms with _ | ⟨key, _ | ⟨value, rest⟩⟩
        · simp
        · simp
        · exact (h key value rest rfl).elim
      have hvalue : forms[2 * i + 1]? = none := List.getElem?_eq_none (by omega)
      simp [hvalue]

/-- The entry at a place says what the form of its key and that of its value say. -/
theorem getElem?_entryData_eq_some_iff (forms : List Node) (i : Nat) (k : Key) (d : Datum) :
    (entryData forms)[i]? = some (k, d) ↔
      ∃ key value, forms[2 * i]? = some key ∧ forms[2 * i + 1]? = some value ∧
        key.toKey = k ∧ value.toDatum = d := by
  rw [entryData_eq_map, List.getElem?_map, getElem?_entries]
  simp [Option.bind_eq_some_iff]

theorem wellFormed_of_mem_entryData {forms : List Node} {w : Key × Datum}
    (h : w ∈ entryData forms) : w.1.WellFormed := by
  rw [entryData_eq_map] at h
  obtain ⟨e, he, rfl⟩ := List.mem_map.mp h
  exact wellFormed_of_mem_entries he

/-- No bag in the key of a form holds a key twice, and among such keys being the same key is
an equivalence. It is how a container merges keys, as `Key.equal` is how a test compares them;
the two differ about a pair of bare floats that are not numbers, and about no other pair. A
map says the first value under every key that is written with one, in the order in which the
keys are first written, and these conditions leave no other map. -/
theorem toDatum_map_first (start stop : Position) (forms : List Node) :
    (∀ n : Node, n.toKey.WellFormed) ∧
      (Equivalence fun k l : {k : Key // k.WellFormed} => k.1.same l.1 = true) ∧
      (∀ k l : {k : Key // k.WellFormed}, (k.1.same l.1 = true ↔ k.1.Merges l.1) ∧
        (k.1.equal l.1 = true ↔ k.1.Equals l.1)) ∧
      (∀ k l : Key, k.same l = k.equal l ↔ ¬ (k.isNaN = true ∧ l.isNaN = true)) ∧
      (∀ i k d, (entryData forms)[i]? = some (k, d) ↔
        ∃ key value, forms[2 * i]? = some key ∧ forms[2 * i + 1]? = some value ∧
          key.toKey = k ∧ value.toDatum = d) ∧
      ∃ kept, (mk .map start stop forms).toDatum = .map kept ∧
        Key.FirstEntries (entryData forms) kept ∧
        ∀ other, Key.FirstEntries (entryData forms) other → other = kept := by
  have hwritten : ∀ w ∈ entryData forms, w.1.WellFormed := fun _ => wellFormed_of_mem_entryData
  have hfirst := Key.firstEntries_distinctEntries hwritten
  refine ⟨toKey_wellFormed, Key.same_equivalence, fun k l => ?_, Key.same_eq_equal_iff,
    getElem?_entryData_eq_some_iff forms, _, rfl, hfirst, fun other hother => ?_⟩
  · exact ⟨Key.same_iff_merges k.2 l.2, Key.equal_iff_equals k.2 l.2⟩
  · exact hother.unique hwritten hfirst

/-- A list and a vector of what is not a number are one key, as are a truth value and a float,
and the map keeps the first of each. What is not a number is merged with itself without being
equal to itself. -/
theorem toDatum_map_first_merged :
    let pos (offset : Nat) : Position := ⟨1, offset + 1, offset⟩
    let leaf (a : Atom) (i j : Nat) : Node := .mk (.scalar a) (pos i) (pos j) []
    let number (n : Int) : Atom := .number (.int n)
    let nan : Atom := .number (.float .nan)
    let one : Atom := .number (.float (.finite false 4503599627370496 (-52)))
    let forms : List Node :=
      [.mk .list (pos 1) (pos 8) [leaf nan 2 7], leaf (number 1) 9 10,
        leaf (.bool true) 11 15, leaf (number 2) 16 17,
        .mk .vector (pos 18) (pos 25) [leaf nan 19 24], leaf (number 3) 26 27,
        leaf one 28 31, leaf (number 4) 32 33, leaf (.keyword "a") 34 36]
    let kept : List (Key × Datum) :=
      [(.tuple [.atom nan], .atom (number 1)), (.atom (.bool true), .atom (number 2))]
    parse "\x7b(##NaN) 1 true 2 [##NaN] 3 1.0 4 :a\x7d" =
        .ok (.mk .document (pos 0) (pos 37) [.mk .map (pos 0) (pos 37) forms]) ∧
      (mk .map (pos 0) (pos 37) forms).toDatum = .map kept ∧
      Key.FirstEntries (entryData forms) kept ∧ (Key.atom (.bool true)).Equals (.atom one) ∧
      (Key.atom nan).Merges (.atom nan) ∧ ¬ (Key.atom nan).Equals (.atom nan) ∧
      (Key.tuple [.atom nan]).Equals (.tuple [.atom nan]) := by
  intro pos leaf number nan one forms kept
  have hdatum : (mk .map (pos 0) (pos 37) forms).toDatum = .map kept := by decide +kernel
  obtain ⟨-, hsame, hdecides, hdiffer, -, kept', hkept', hfirst, -⟩ :=
    toDatum_map_first (pos 0) (pos 37) forms
  rw [hdatum, Datum.map.injEq] at hkept'
  have hnan : (Key.atom nan).WellFormed := trivial
  have htuple : (Key.tuple [.atom nan]).WellFormed := ⟨trivial, trivial⟩
  refine ⟨by decide +kernel, hdatum, hkept' ▸ hfirst, ?_, ?_, ?_, ?_⟩
  · exact (hdecides ⟨.atom (.bool true), trivial⟩ ⟨.atom one, trivial⟩).2.mp (by decide +kernel)
  · exact (hdecides ⟨_, hnan⟩ ⟨_, hnan⟩).1.mp (hsame.refl ⟨_, hnan⟩)
  · intro hequals
    have hagree : (Key.atom nan).same (.atom nan) = (Key.atom nan).equal (.atom nan) :=
      (hsame.refl ⟨_, hnan⟩).trans ((hdecides ⟨_, hnan⟩ ⟨_, hnan⟩).2.mpr hequals).symm
    exact (hdiffer _ _).mp hagree ⟨rfl, rfl⟩
  · exact (hdecides ⟨_, htuple⟩ ⟨_, htuple⟩).2.mp (Key.equal_self rfl)

end Node

end EdnLint
