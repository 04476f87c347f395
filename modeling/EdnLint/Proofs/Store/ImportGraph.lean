import EdnLint.Proofs.Store.Keeping
import EdnLint.Proofs.Store.Lookup
import Mathlib.Combinatorics.Pigeonhole
import Mathlib.Data.Finset.Prod

/-!
# The graph of imports

The files that imports lead to are the nodes of a graph. An edge is a file with the
name it declares, one of the names it imports, and the file which that name is
looked up at; the two names need not agree, since a file may declare another name
than it is found by.

The only guard against loading a file again is that an import whose name is stored
is not loaded, and what a file stores is the name it declares. So loading can go
along edges as long as no import has a name that a file on the way has declared
(`PassesGuard`). A cycle of this kind can be cut short wherever one of its files
imports another of the names in it, so there is one without such chords.
-/

namespace EdnLint

open Vocabulary

namespace Store

/-- The names that a namespace imports, in the order in which they are loaded. -/
def importNames (entries : List (Key × Datum)) : List Text :=
  (symbolNames? ((Key.lookup? imports entries).getD .nil)).getD []

/-- The file at a path reads as a datum. -/
def Reads (t : FileTree) (path : Path) (d : Datum) : Prop :=
  ∃ text, t.readText path = .ok text ∧ readDatum text = .ok d

theorem Reads.unique {t : FileTree} {path : Path} {d d' : Datum} (h : Reads t path d)
    (h' : Reads t path d') : d = d' := by
  obtain ⟨text, htext, hd⟩ := h
  obtain ⟨text', htext', hd'⟩ := h'
  obtain rfl : text = text' := Except.ok.inj (htext.symm.trans htext')
  exact Except.ok.inj (hd.symm.trans hd')

theorem Reads.of_place {t : FileTree} {path path' : Path} {file : List Text} {d : Datum}
    (h : Reads t path d) (hplace : t.place? path = some file) (hplace' : t.place? path' = some file)
    (hrefusal : path'.refusal? = none) : Reads t path' d := by
  obtain ⟨text, htext, hd⟩ := h
  have hrefusal' := (FileTree.mem_filePlaces_of_readText htext).1
  exact ⟨text, (FileTree.readText_congr hplace' hplace hrefusal hrefusal').trans htext, hd⟩

/-- One file reads in one way, whatever the path. -/
theorem Reads.eq_of_place {t : FileTree} {path path' : Path} {file : List Text} {d d' : Datum}
    (h : Reads t path d) (h' : Reads t path' d') (hplace : t.place? path = some file)
    (hplace' : t.place? path' = some file) : d = d' := by
  have hrefusal : path'.refusal? = none := by
    obtain ⟨text, htext, -⟩ := h'
    exact (FileTree.mem_filePlaces_of_readText htext).1
  exact (h.of_place hplace hplace' hrefusal).unique h'

theorem mem_filePlaces_of_reads {t : FileTree} {path : Path} {file : List Text} {d : Datum}
    (h : Reads t path d) (hplace : t.place? path = some file) : file ∈ t.filePlaces := by
  obtain ⟨text, htext, -⟩ := h
  obtain ⟨-, place, hmem, hplace'⟩ := FileTree.mem_filePlaces_of_readText htext
  obtain rfl : place = file := Option.some_inj.mp (hplace'.symm.trans hplace)
  exact hmem

end Store

/-- A file, the name it declares, a name it imports and the file this is found at. -/
structure ImportEdge where
  file : List Text
  ns : Text
  name : Text
  target : List Text

namespace ImportEdge

variable {t : FileTree} {paths : List Path}

/-- The file declares the namespace `ns` and imports `name`. -/
def Lists (t : FileTree) (file : List Text) (ns name : Text) : Prop :=
  ∃ path entries, t.place? path = some file ∧ Store.Reads t path (.map entries) ∧
    declared? (.map entries) = some ns ∧ name ∈ Store.importNames entries

/-- The name is looked up in the directories `paths` and found at the file. -/
def Finds (t : FileTree) (paths : List Path) (name : Text) (file : List Text) : Prop :=
  ∃ path, (Store.empty paths).findNamespace? t name = .ok (some path) ∧ t.place? path = some file

theorem Lists.ns_unique {file : List Text} {ns ns' name name' : Text} (h : Lists t file ns name)
    (h' : Lists t file ns' name') : ns = ns' := by
  obtain ⟨path, entries, hplace, hreads, hns, -⟩ := h
  obtain ⟨path', entries', hplace', hreads', hns', -⟩ := h'
  cases hreads.eq_of_place hreads' hplace hplace'
  exact Option.some_inj.mp (hns.symm.trans hns')

theorem Lists.mem_filePlaces {file : List Text} {ns name : Text} (h : Lists t file ns name) :
    file ∈ t.filePlaces := by
  obtain ⟨path, entries, hplace, hreads, -⟩ := h
  exact Store.mem_filePlaces_of_reads hreads hplace

/-- The edges lead from one file to another. -/
def IsWalk (t : FileTree) (paths : List Path) : List ImportEdge → List Text → List Text → Prop
  | [], file, file' => file = file'
  | e :: edges, file, file' =>
      e.file = file ∧ Lists t e.file e.ns e.name ∧ Finds t paths e.name e.target ∧
        IsWalk t paths edges e.target file'

theorem isWalk_append {edges edges' : List ImportEdge} {file file' : List Text} :
    IsWalk t paths (edges ++ edges') file file' ↔
      ∃ middle, IsWalk t paths edges file middle ∧ IsWalk t paths edges' middle file' := by
  induction edges generalizing file with
  | nil => simp [IsWalk]
  | cons e edges ih =>
      simp only [List.cons_append, IsWalk, ih]
      constructor
      · rintro ⟨hfile, hlists, hfinds, middle, hedges, hedges'⟩
        exact ⟨middle, ⟨hfile, hlists, hfinds, hedges⟩, hedges'⟩
      · rintro ⟨middle, ⟨hfile, hlists, hfinds, hedges⟩, hedges'⟩
        exact ⟨hfile, hlists, hfinds, middle, hedges, hedges'⟩

theorem IsWalk.lists {edges : List ImportEdge} {file file' : List Text}
    (h : IsWalk t paths edges file file') {e : ImportEdge} (he : e ∈ edges) :
    Lists t e.file e.ns e.name ∧ Finds t paths e.name e.target := by
  induction edges generalizing file with
  | nil => exact absurd he List.not_mem_nil
  | cons e' edges ih =>
      obtain ⟨-, hlists, hfinds, hedges⟩ := h
      rcases List.mem_cons.mp he with rfl | he
      · exact ⟨hlists, hfinds⟩
      · exact ih hedges he

/-- No import on the way has a name that has been declared on the way to it. -/
structure PassesGuard (edges : List ImportEdge) : Prop where
  own : ∀ e ∈ edges, e.name ≠ e.ns
  later : edges.Pairwise fun e e' => e'.name ≠ e.ns

theorem passesGuard_append {edges edges' : List ImportEdge} :
    PassesGuard (edges ++ edges') ↔
      PassesGuard edges ∧ PassesGuard edges' ∧ ∀ e ∈ edges, ∀ e' ∈ edges', e'.name ≠ e.ns := by
  constructor
  · rintro ⟨hown, hlater⟩
    rw [List.forall_mem_append] at hown
    rw [List.pairwise_append] at hlater
    exact ⟨⟨hown.1, hlater.1⟩, ⟨hown.2, hlater.2.1⟩, hlater.2.2⟩
  · rintro ⟨⟨hown, hlater⟩, ⟨hown', hlater'⟩, hacross⟩
    exact ⟨List.forall_mem_append.mpr ⟨hown, hown'⟩,
      List.pairwise_append.mpr ⟨hlater, hlater', hacross⟩⟩

theorem passesGuard_cons {e : ImportEdge} {edges : List ImportEdge} :
    PassesGuard (e :: edges) ↔
      e.name ≠ e.ns ∧ PassesGuard edges ∧ ∀ e' ∈ edges, e'.name ≠ e.ns := by
  constructor
  · rintro ⟨hown, hlater⟩
    rw [List.forall_mem_cons] at hown
    rw [List.pairwise_cons] at hlater
    exact ⟨hown.1, ⟨hown.2, hlater.2⟩, hlater.1⟩
  · rintro ⟨hown, ⟨hown', hlater⟩, hacross⟩
    exact ⟨List.forall_mem_cons.mpr ⟨hown, hown'⟩, List.pairwise_cons.mpr ⟨hacross, hlater⟩⟩

/-- A cycle of imports through a file. -/
structure IsCycle (t : FileTree) (paths : List Path) (edges : List ImportEdge)
    (file : List Text) : Prop where
  ne_nil : edges ≠ []
  walk : IsWalk t paths edges file file

theorem IsCycle.exists_next {edges : List ImportEdge} {file : List Text}
    (h : IsCycle t paths edges file) {e : ImportEdge} (he : e ∈ edges) :
    ∃ e' ∈ edges, e'.file = e.target := by
  obtain ⟨before, after, rfl⟩ := List.append_of_mem he
  obtain ⟨middle, -, -, -, -, hafter⟩ := isWalk_append.mp h.walk
  cases after with
  | cons e' after => exact ⟨e', by simp, hafter.1⟩
  | nil =>
      obtain rfl : e.target = file := hafter
      obtain ⟨hne, hwalk⟩ := h
      cases before with
      | nil => exact ⟨e, by simp, hwalk.1⟩
      | cons e' before => exact ⟨e', by simp, hwalk.1⟩

theorem IsCycle.exists_last {edges : List ImportEdge} {file : List Text}
    (h : IsCycle t paths edges file) : ∃ e ∈ edges, e.target = file := by
  obtain ⟨before, e, rfl⟩ := (List.eq_nil_or_concat' edges).resolve_left h.ne_nil
  obtain ⟨middle, -, -, -, -, htarget⟩ := isWalk_append.mp h.walk
  exact ⟨e, by simp, htarget⟩

/-- A file of the cycle imports no other name of the cycle than the one that follows,
save those that have been declared on the way to it. -/
def IsChordless (t : FileTree) (edges : List ImportEdge) : Prop :=
  ∀ before e after, edges = before ++ e :: after → ∀ e' ∈ edges, Lists t e.file e.ns e'.name →
    (∀ x ∈ before ++ [e], e'.name ≠ x.ns) → e'.name = e.name

/-- A chord leads to a shorter cycle. -/
theorem exists_shorter {before after : List ImportEdge} {e e' : ImportEdge} {file : List Text}
    (hcycle : IsCycle t paths (before ++ e :: after) file)
    (hguard : PassesGuard (before ++ e :: after)) (he' : e' ∈ before ++ e :: after)
    (hlists : Lists t e.file e.ns e'.name) (hnew : ∀ x ∈ before ++ [e], e'.name ≠ x.ns)
    (hne : e'.name ≠ e.name) :
    ∃ edges file', edges.length < (before ++ e :: after).length ∧ IsCycle t paths edges file' ∧
      PassesGuard edges := by
  let chord : ImportEdge := { e with name := e'.name, target := e'.target }
  have hfinds := (hcycle.walk.lists he').2
  rw [List.forall_mem_append, List.forall_mem_singleton] at hnew
  obtain ⟨middle, hbefore, rfl, -, -, hafter⟩ := isWalk_append.mp hcycle.walk
  obtain ⟨hgbefore, hge, hacross⟩ := passesGuard_append.mp hguard
  obtain ⟨-, hgafter, hgnext⟩ := passesGuard_cons.mp hge
  rw [List.mem_append, List.mem_cons] at he'
  rcases he' with he' | rfl | he'
  · -- back to a file before it: what lies between, closed by the chord
    obtain ⟨before₁, before₂, rfl⟩ := List.append_of_mem he'
    obtain ⟨-, -, -, -, -, hbetween⟩ := isWalk_append.mp hbefore
    obtain ⟨-, hgbetween, -⟩ := passesGuard_append.mp hgbefore
    refine ⟨before₂ ++ [chord], e'.target, ?_, ⟨by simp, ?_⟩, ?_⟩
    · simp only [List.length_append, List.length_cons, List.length_nil]
      omega
    · exact isWalk_append.mpr ⟨e.file, hbetween, rfl, hlists, hfinds, rfl⟩
    · refine passesGuard_append.mpr ⟨(passesGuard_cons.mp hgbetween).2.1, ?_, ?_⟩
      · exact passesGuard_cons.mpr ⟨hnew.2, ⟨by simp, .nil⟩, by simp⟩
      · intro x hx y hy
        rw [List.mem_singleton.mp hy]
        exact hnew.1 x (by simp [hx])
  · exact absurd rfl hne
  · -- on to a file behind it: what lies between is left out
    obtain ⟨after₁, after₂, rfl⟩ := List.append_of_mem he'
    obtain ⟨-, -, -, -, -, hrest⟩ := isWalk_append.mp hafter
    obtain ⟨-, hgrest, -⟩ := passesGuard_append.mp hgafter
    refine ⟨before ++ chord :: after₂, file, ?_, ⟨by simp, ?_⟩, ?_⟩
    · simp only [List.length_append, List.length_cons]
      omega
    · exact isWalk_append.mpr ⟨e.file, hbefore, rfl, hlists, hfinds, hrest⟩
    · refine passesGuard_append.mpr ⟨hgbefore, ?_, ?_⟩
      · refine passesGuard_cons.mpr ⟨hnew.2, (passesGuard_cons.mp hgrest).2.1, fun x hx => ?_⟩
        exact hgnext x (by simp [hx])
      · intro x hx y hy
        rcases List.mem_cons.mp hy with rfl | hy
        · exact hnew.1 x hx
        · exact hacross x hx y (by simp [hy])

/-- If loading can go round a cycle, then it can go round one without chords. -/
theorem exists_isChordless {edges : List ImportEdge} {file : List Text}
    (hcycle : IsCycle t paths edges file) (hguard : PassesGuard edges) :
    ∃ edges file, IsCycle t paths edges file ∧ PassesGuard edges ∧ IsChordless t edges := by
  induction hn : edges.length using Nat.strong_induction_on generalizing edges file with
  | _ n ih =>
      by_cases hchordless : IsChordless t edges
      · exact ⟨edges, file, hcycle, hguard, hchordless⟩
      · simp only [IsChordless, not_forall] at hchordless
        obtain ⟨before, e, after, rfl, e', he', hlists, hnew, hne⟩ := hchordless
        obtain ⟨edges', file', hlt, hcycle', hguard'⟩ :=
          exists_shorter hcycle hguard he' hlists hnew hne
        exact ih _ (hn ▸ hlt) hcycle' hguard' rfl

/-- The names that are declared along a walk are no more than the files. -/
theorem IsWalk.card_declared_le {edges : List ImportEdge} {file file' : List Text}
    (h : IsWalk t paths edges file file') :
    (edges.map (·.ns)).toFinset.card ≤ t.fileCount := by
  let declaredAt (file : List Text) : Text := ((edges.find? (·.file = file)).map (·.ns)).getD []
  have hsub : (edges.map (·.ns)).toFinset ⊆ t.filePlaces.image declaredAt := by
    intro ns hns
    obtain ⟨e, he, rfl⟩ := List.mem_map.mp (List.mem_toFinset.mp hns)
    refine Finset.mem_image.mpr ⟨e.file, (h.lists he).1.mem_filePlaces, ?_⟩
    cases hfind : edges.find? (·.file = e.file) with
    | none => simpa using List.find?_eq_none.mp hfind e he
    | some e' =>
        have hfile : e'.file = e.file := by simpa using List.find?_some hfind
        have hlists := (h.lists (List.mem_of_find?_eq_some hfind)).1
        rw [hfile] at hlists
        simp only [declaredAt, hfind, Option.map_some, Option.getD_some]
        exact hlists.ns_unique (h.lists he).1
  exact ((Finset.card_le_card hsub).trans Finset.card_image_le).trans t.card_filePlaces_le

/-- A walk that comes to a file twice goes round a cycle in between. -/
theorem IsWalk.isCycle_between {before between after : List ImportEdge} {e e' : ImportEdge}
    {file file' : List Text}
    (h : IsWalk t paths (before ++ e :: between ++ e' :: after) file file')
    (hfile : e.file = e'.file) : IsCycle t paths (e :: between) e.file := by
  obtain ⟨stop, hfirst, rfl, -⟩ := isWalk_append.mp h
  obtain ⟨start, -, rfl, hlists, hfinds, hbetween⟩ := isWalk_append.mp hfirst
  exact ⟨List.cons_ne_nil _ _, rfl, hlists, hfinds, hfile ▸ hbetween⟩

/-- A long walk comes to a file twice without a name being declared in between that
was not declared before. -/
theorem IsWalk.exists_return {edges : List ImportEdge} {file file' : List Text}
    (h : IsWalk t paths edges file file')
    (hlong : (t.fileCount + 1) * t.fileCount < edges.length) :
    ∃ before e between e' after, edges = before ++ e :: between ++ e' :: after ∧
      e.file = e'.file ∧ ∀ x ∈ before ++ e :: between, ∃ y ∈ before, y.ns = x.ns := by
  let declared (i : Nat) : Finset Text := ((edges.take i).map (·.ns)).toFinset
  have hbound : ∀ i, (declared i).card ≤ t.fileCount := by
    intro i
    rw [← List.take_append_drop i edges] at h
    obtain ⟨_, htake, -⟩ := isWalk_append.mp h
    exact htake.card_declared_le
  -- there are fewer pairs of a file and a number of declared names than edges
  let mark (i : Fin edges.length) : Nat × List Text := ((declared i).card, edges[i].file)
  have hmaps : ∀ i ∈ Finset.univ, mark i ∈ Finset.range (t.fileCount + 1) ×ˢ t.filePlaces := by
    intro i _
    refine Finset.mem_product.mpr ⟨?_, (h.lists (List.getElem_mem i.isLt)).1.mem_filePlaces⟩
    exact Finset.mem_range_succ_iff.mpr (hbound i)
  have hcard : (Finset.range (t.fileCount + 1) ×ˢ t.filePlaces).card <
      (Finset.univ : Finset (Fin edges.length)).card := by
    rw [Finset.card_product, Finset.card_range, Finset.card_univ, Fintype.card_fin]
    exact (Nat.mul_le_mul_left _ t.card_filePlaces_le).trans_lt hlong
  obtain ⟨i, j, hij, hmark⟩ : ∃ i j : Fin edges.length, i < j ∧ mark i = mark j := by
    obtain ⟨i, -, j, -, hne, hmark⟩ := Finset.exists_ne_map_eq_of_card_lt_of_maps_to hcard hmaps
    rcases lt_or_gt_of_ne hne with hlt | hlt
    · exact ⟨i, j, hlt, hmark⟩
    · exact ⟨j, i, hlt, hmark.symm⟩
  obtain ⟨hsame, hfile⟩ := Prod.mk.inj hmark
  have htake : edges.take i ++ edges[i] :: (edges.take j).drop (i + 1) = edges.take j := by
    have hi : i.val < (edges.take j).length := by
      rw [List.length_take, Nat.min_eq_left (Nat.le_of_lt j.isLt)]
      exact hij
    calc edges.take i ++ edges[i] :: (edges.take j).drop (i + 1)
        = (edges.take j).take i ++ (edges.take j).drop i := by
          rw [List.take_take, Nat.min_eq_left (Nat.le_of_lt hij), List.drop_eq_getElem_cons hi,
            List.getElem_take]
          rfl
      _ = edges.take j := List.take_append_drop i _
  refine ⟨edges.take i, edges[i], (edges.take j).drop (i + 1), edges[j], edges.drop (j + 1), ?_,
    hfile, fun x hx => ?_⟩
  · rw [htake]
    exact (List.take_append_drop j edges).symm.trans (by rw [List.drop_eq_getElem_cons j.isLt]; rfl)
  · rw [htake] at hx
    have hsubset : declared i ⊆ declared j := by
      intro ns hns
      obtain ⟨y, hy, rfl⟩ := List.mem_map.mp (List.mem_toFinset.mp hns)
      refine List.mem_toFinset.mpr (List.mem_map_of_mem ?_)
      rw [← htake]
      exact List.mem_append_left _ hy
    have hns : x.ns ∈ declared i := by
      rw [Finset.eq_of_subset_of_card_le hsubset hsame.ge]
      exact List.mem_toFinset.mpr (List.mem_map_of_mem hx)
    exact List.mem_map.mp (List.mem_toFinset.mp hns)

/-- A long walk that passes the guard goes round a cycle in which no file declares a
name of the cycle. -/
theorem IsWalk.exists_endless {edges : List ImportEdge} {file file' : List Text}
    (h : IsWalk t paths edges file file') (hguard : PassesGuard edges)
    (hlong : (t.fileCount + 1) * t.fileCount < edges.length) :
    ∃ cycle file, IsCycle t paths cycle file ∧ ∀ e ∈ cycle, ∀ e' ∈ cycle, e'.name ≠ e.ns := by
  obtain ⟨before, e, between, e', after, rfl, hfile, hold⟩ := h.exists_return hlong
  refine ⟨e :: between, e.file, h.isCycle_between hfile, fun x hx y hy => ?_⟩
  obtain ⟨z, hz, hns⟩ := hold x (List.mem_append_right _ hx)
  obtain ⟨-, -, hacross⟩ := passesGuard_append.mp (passesGuard_append.mp hguard).1
  rw [← hns]
  exact hacross z hz y hy

end ImportEdge

end EdnLint
