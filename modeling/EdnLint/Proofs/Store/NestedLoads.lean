import EdnLint.Proofs.Document.Decidable
import EdnLint.Proofs.Store.ImportGraph

/-!
# Loads inside one another

Submitting a namespace loads its imports, whose files are submitted in turn, so
loads are inside one another. `Store.Loading` follows them from a submission to the
start of a load, with the edges of the import graph that the files in progress lead
along.

A file in progress has stored the name it declares, and a load starts only for a
name that is not stored. So the edges pass the guard, and a file that is loaded
while it is in progress closes a cycle that passes it. Conversely every such cycle
is gone round for some store, the one that has all names its files import besides
those of the cycle. The same holds of loads without end and cycles in which no file
declares a name of the cycle.
-/

namespace EdnLint

open Vocabulary

namespace Store

variable {t : FileTree} {paths : List Path}

/-- Submitting the datum gets to the point where the file at a path is loaded for
the import `name`: the imports before it are done with, and the name is not stored. -/
def Starts [Pattern.Engine] (t : FileTree) (d : Datum) (s : Store) (name : Text) (path : Path)
    (s' : Store) : Prop :=
  ∃ depth entries ns before after, d = .map entries ∧ declared? d = some ns ∧
    importNames entries = before ++ name :: after ∧
    (Outcome.each (loadImport t (loadFileWithin t depth) ns) before (s.put ns entries)).fault =
      none ∧
    s' = (Outcome.each (loadImport t (loadFileWithin t depth) ns) before
      (s.put ns entries)).store.clear ∧
    s'.namespace? name = none ∧ s'.findNamespace? t name = .ok (some path)

theorem Starts.spec [Pattern.Engine] {d : Datum} {s s' : Store} {name : Text} {path : Path}
    (h : Starts t d s name path s') :
    ∃ entries ns, d = .map entries ∧ declared? d = some ns ∧ name ∈ importNames entries ∧
      Keeps s s' ∧ (s'.namespace? ns).isSome ∧ s'.namespace? name = none ∧
      s'.findNamespace? t name = .ok (some path) := by
  obtain ⟨depth, entries, ns, before, after, hd, hns, hnames, hfault, rfl, hname, hfind⟩ := h
  have hkeeps := each_loadImport_keeps (loadFileWithin_keeps t depth) hfault
  refine ⟨entries, ns, hd, hns, by simp [hnames], ?_, ?_, hname, hfind⟩
  · exact ((keeps_put s ns entries).trans hkeeps).trans (keeps_clear _)
  · exact hkeeps.stored ns (isSome_namespace?_put.mpr (Or.inl rfl))

/-- A submission has got to the start of a load of the file at a path, in the store
that comes last. The edges lead through the files that are in progress then, the
outermost first. -/
inductive Loading [Pattern.Engine] (t : FileTree) (d : Datum) (s : Store) :
    List ImportEdge → Path → Store → Prop
  | start {name : Text} {path : Path} {s' : Store} (h : Starts t d s name path s') :
      Loading t d s [] path s'
  | nest {edges : List ImportEdge} {path path' : Path} {s₁ s' : Store} {d' : Datum}
      {ns name : Text} {file file' : List Text} (outer : Loading t d s edges path s₁)
      (hfile : t.place? path = some file) (hreads : Reads t path d')
      (hns : declared? d' = some ns) (h : Starts t d' s₁ name path' s')
      (hfile' : t.place? path' = some file') :
      Loading t d s (edges ++ [⟨file, ns, name, file'⟩]) path' s'

/-- What holds while files are in progress. -/
structure Progress (t : FileTree) (paths : List Path) (edges : List ImportEdge) (path : Path)
    (s : Store) : Prop where
  paths_eq : s.paths = paths
  isFile : t.isFile path = .ok true
  walk : ∃ first file, t.place? path = some file ∧ ImportEdge.IsWalk t paths edges first file
  guard : ImportEdge.PassesGuard edges
  stored : ∀ e ∈ edges, (s.namespace? e.ns).isSome

theorem Loading.progress [Pattern.Engine] {d : Datum} {s s' : Store} {edges : List ImportEdge}
    {path : Path} (hpaths : s.paths = paths) (h : Loading t d s edges path s') :
    Progress t paths edges path s' := by
  induction h with
  | start h =>
      obtain ⟨entries, ns, -, -, -, hkeeps, -, -, hfind⟩ := h.spec
      have hfile := isFile_of_findNamespace? hfind
      obtain ⟨-, file, hplace⟩ := FileTree.exists_place_of_isFile hfile
      exact ⟨hkeeps.paths.trans hpaths, hfile, ⟨file, file, hplace, rfl⟩, ⟨by simp, .nil⟩, by simp⟩
  | @nest edges path path' s₁ s' d' ns name file file' outer hfile hreads hns h hfile' ih =>
      obtain ⟨entries, ns', rfl, hns', hname, hkeeps, hstored, hnew, hfind⟩ := h.spec
      obtain rfl : ns = ns' := Option.some_inj.mp (hns.symm.trans hns')
      have hpaths' := hkeeps.paths.trans ih.paths_eq
      have hbefore : ∀ e ∈ edges, (s'.namespace? e.ns).isSome :=
        fun e he => hkeeps.stored _ (ih.stored e he)
      have hne : ∀ y, (s'.namespace? y).isSome → name ≠ y := by
        rintro _ hy rfl
        simp [hnew] at hy
      refine ⟨hpaths', isFile_of_findNamespace? hfind, ?_, ?_, ?_⟩
      · obtain ⟨first, middle, hmiddle, hwalk⟩ := ih.walk
        obtain rfl : middle = file := Option.some_inj.mp (hmiddle.symm.trans hfile)
        refine ⟨first, file', hfile', ?_⟩
        refine ImportEdge.isWalk_append.mpr ⟨middle, hwalk, rfl, ?_, ?_, rfl⟩
        · exact ⟨path, entries, hfile, hreads, hns, hname⟩
        · exact ⟨path', (findNamespace?_congr (s := s') hpaths'.symm name).trans hfind, hfile'⟩
      · refine ImportEdge.passesGuard_append.mpr ⟨ih.guard, ?_, ?_⟩
        · exact ImportEdge.passesGuard_cons.mpr ⟨hne _ hstored, ⟨by simp, .nil⟩, by simp⟩
        · intro e he e' he'
          rw [List.mem_singleton.mp he']
          exact hne _ (hbefore e he)
      · rw [List.forall_mem_append, List.forall_mem_singleton]
        exact ⟨hbefore, hstored⟩

/-- A file that is loaded while it is in progress closes a cycle. -/
theorem Progress.exists_cycle {edges : List ImportEdge} {path : Path} {s : Store}
    (h : Progress t paths edges path s) {e : ImportEdge} (he : e ∈ edges)
    (hplace : t.place? path = some e.file) :
    ∃ edges file, ImportEdge.IsCycle t paths edges file ∧ ImportEdge.PassesGuard edges := by
  obtain ⟨first, file, hfile, hwalk⟩ := h.walk
  obtain rfl : file = e.file := Option.some_inj.mp (hfile.symm.trans hplace)
  obtain ⟨before, after, rfl⟩ := List.append_of_mem he
  obtain ⟨middle, -, hmiddle, hrest⟩ := ImportEdge.isWalk_append.mp hwalk
  exact ⟨e :: after, e.file, ⟨List.cons_ne_nil _ _, rfl, hrest⟩,
    (ImportEdge.passesGuard_append.mp h.guard).2.1⟩

theorem each_loadImport_of_stored {load : Path → Store → Outcome} {ns : Text} {names : List Text}
    {s : Store} (h : ∀ name ∈ names, (s.namespace? name).isSome) :
    Outcome.each (loadImport t load ns) names s = .done s := by
  induction names with
  | nil => rfl
  | cons name names ih =>
      rw [List.forall_mem_cons] at h
      have hname : loadImport t load ns name s = .done s := by simp [loadImport, h.1]
      rw [Outcome.each_cons, hname, Outcome.done_andThen]
      exact ih h.2

/-- An import that is not stored is loaded if those before it are. -/
theorem starts_of_stored [Pattern.Engine] {s : Store} {entries : List (Key × Datum)}
    {ns name : Text} {before after : List Text} {path : Path}
    (hns : declared? (.map entries) = some ns)
    (hnames : importNames entries = before ++ name :: after)
    (hbefore : ∀ y ∈ before, ((s.put ns entries).namespace? y).isSome)
    (hname : (s.put ns entries).namespace? name = none)
    (hfind : s.findNamespace? t name = .ok (some path)) :
    Starts t (.map entries) s name path (s.put ns entries).clear := by
  have hskip : Outcome.each (loadImport t (loadFileWithin t 0) ns) before (s.put ns entries) =
      .done (s.put ns entries) := each_loadImport_of_stored hbefore
  refine ⟨0, entries, ns, before, after, rfl, hns, hnames, ?_, ?_, hname, hfind⟩
  · rw [hskip]
    rfl
  · rw [hskip]
    rfl

/-- The first of a file's imports that is not stored is loaded, if it is found. -/
theorem exists_starts [Pattern.Engine] {e : ImportEdge} {s : Store} {path : Path}
    (hpaths : s.paths = paths) (hlists : ImportEdge.Lists t e.file e.ns e.name)
    (hplace : t.place? path = some e.file)
    (hfile : t.isFile path = .ok true) (hown : e.name ≠ e.ns) (hname : s.namespace? e.name = none) :
    ∃ entries y, Reads t path (.map entries) ∧ declared? (.map entries) = some e.ns ∧
      ImportEdge.Lists t e.file e.ns y ∧ y ≠ e.ns ∧ s.namespace? y = none ∧
      ∀ target, ImportEdge.Finds t paths y target → ∃ path', t.isFile path' = .ok true ∧
        t.place? path' = some target ∧
        Starts t (.map entries) s y path' (s.put e.ns entries).clear := by
  obtain ⟨path₀, entries, hplace₀, hreads, hns, hmem⟩ := hlists
  let isNew (y : Text) : Bool := ((s.put e.ns entries).namespace? y).isNone
  have hnew : ∀ y, isNew y = true ↔ y ≠ e.ns ∧ s.namespace? y = none :=
    fun y => Option.isNone_iff_eq_none.trans namespace?_put_eq_none_iff
  obtain ⟨y, hy⟩ : ∃ y, (importNames entries).find? isNew = some y :=
    Option.isSome_iff_exists.mp
      (List.find?_isSome.mpr ⟨e.name, hmem, (hnew e.name).mpr ⟨hown, hname⟩⟩)
  obtain ⟨hynew, before, after, hnames, hbefore⟩ := List.find?_eq_some_iff_append.mp hy
  have hymem : y ∈ importNames entries := by simp [hnames]
  have hreads' := hreads.of_place hplace₀ hplace (FileTree.exists_place_of_isFile hfile).1
  refine ⟨entries, y, hreads', hns, ⟨path₀, entries, hplace₀, hreads, hns, hymem⟩,
    ((hnew y).mp hynew).1, ((hnew y).mp hynew).2, ?_⟩
  rintro target ⟨path', hfind, htarget⟩
  have hfind' : s.findNamespace? t y = .ok (some path') := by
    rw [← hfind]
    exact findNamespace?_congr hpaths y
  refine ⟨path', isFile_of_findNamespace? hfind', htarget, ?_⟩
  refine starts_of_stored hns hnames (fun x hx => ?_) (Option.isNone_iff_eq_none.mp hynew) hfind'
  simpa [isNew, Option.isSome_iff_ne_none] using hbefore x hx

/-- The entries of a namespace that imports some names and defines nothing. -/
def importing (ns : Text) (names : List Text) : List (Key × Datum) :=
  [(Vocabulary.ns, .atom (.symbol ns)), (imports, .set (names.map .symbol))]

theorem symbolNames?_symbols (names : List Text) :
    symbolNames? (.set (names.map .symbol)) = some (names.mergeSort Text.le) := by
  have hsymbols : (names.map Key.symbol).mapM Key.symbol? = some names := by
    induction names with
    | nil => rfl
    | cons name names ih =>
        rw [List.map_cons, List.mapM_cons, ih]
        rfl
  rw [symbolNames?, hsymbols, Option.map_some]

theorem importNames_importing {names : List Text} (ns : Text)
    (h : names.Pairwise fun a b => Text.le a b) : importNames (importing ns names) = names := by
  have hlookup : Key.lookup? imports (importing ns names) = some (.set (names.map .symbol)) := rfl
  rw [importNames, hlookup, Option.getD_some, symbolNames?_symbols, Option.getD_some,
    List.mergeSort_of_pairwise h]

theorem starts_importing [Pattern.Engine] {s : Store} {ns name : Text} {after : List Text}
    {path : Path} (hnames : (name :: after).Pairwise fun a b => Text.le a b) (hne : name ≠ ns)
    (hname : s.namespace? name = none) (hfind : s.findNamespace? t name = .ok (some path)) :
    Starts t (.map (importing ns (name :: after))) s name path
      (s.put ns (importing ns (name :: after))).clear := by
  have hfirst : importNames (importing ns (name :: after)) = [] ++ name :: after :=
    importNames_importing ns hnames
  refine starts_of_stored rfl hfirst ?_ ?_ hfind
  · exact fun _ h => absurd h List.not_mem_nil
  · exact namespace?_put_eq_none_iff.mpr ⟨hne, hname⟩

/-- The store has all names that the files of the edges import, but not those of the
edges. -/
structure Covers (t : FileTree) (edges : List ImportEdge) (s : Store) : Prop where
  others : ∀ e ∈ edges, ∀ y, ImportEdge.Lists t e.file e.ns y → y ∉ edges.map (·.name) →
    (s.namespace? y).isSome
  names : ∀ e ∈ edges, s.namespace? e.name = none

/-- An import that is not stored is one of the edges. -/
theorem Covers.exists_edge {edges : List ImportEdge} {s : Store} (h : Covers t edges s)
    {e : ImportEdge} (he : e ∈ edges) {y : Text} (hy : ImportEdge.Lists t e.file e.ns y)
    (hnew : s.namespace? y = none) : ∃ e' ∈ edges, e'.name = y := by
  rw [← List.mem_map]
  by_contra hother
  have hsome := h.others e he y hy hother
  simp [hnew] at hsome

theorem Covers.put {edges : List ImportEdge} {s : Store} (h : Covers t edges s) {ns : Text}
    (hns : ∀ e ∈ edges, e.name ≠ ns) (entries : List (Key × Datum)) :
    Covers t edges (s.put ns entries).clear := by
  constructor
  · intro e he y hy hother
    exact (keeps_put s ns entries).stored y (h.others e he y hy hother)
  · intro e he
    exact namespace?_put_eq_none_iff.mpr ⟨hns e he, h.names e he⟩

theorem exists_covers (paths : List Path) {edges : List ImportEdge}
    (hlists : ∀ e ∈ edges, ImportEdge.Lists t e.file e.ns e.name) :
    ∃ s : Store, s.paths = paths ∧ Covers t edges s := by
  have hall : ∀ e ∈ edges, ∃ names : List Text, ∀ y, ImportEdge.Lists t e.file e.ns y →
      y ∈ names := by
    intro e he
    obtain ⟨path, entries, hplace, hreads, -⟩ := hlists e he
    refine ⟨importNames entries, ?_⟩
    rintro y ⟨path', entries', hplace', hreads', -, hy⟩
    cases hreads.eq_of_place hreads' hplace hplace'
    exact hy
  choose! names hnames using hall
  let others := (edges.flatMap names).filter (· ∉ edges.map (·.name))
  have hstored : ∀ y, ((⟨paths, others.map fun y => (y, []), []⟩ : Store).namespace? y).isSome ↔
      y ∈ others := by
    intro y
    rw [namespace?, Members.isSome_get?_iff]
    simp [Members.names]
  refine ⟨⟨paths, others.map fun y => (y, []), []⟩, rfl, ?_, ?_⟩
  · intro e he y hy hother
    rw [hstored]
    simp only [others, List.mem_filter, List.mem_flatMap, decide_eq_true_eq]
    exact ⟨⟨e, he, hnames e he y hy⟩, hother⟩
  · intro e he
    rw [← Option.not_isSome_iff_eq_none, hstored]
    simp only [others, List.mem_filter, decide_eq_true_eq, not_and, not_not]
    exact fun _ => List.mem_map_of_mem he

section

variable [Pattern.Engine]

/-- A cycle without chords is gone round: a store and a namespace for which loading
gets back to the file with all of the cycle in progress. -/
theorem exists_loading_round {edges : List ImportEdge} {file : List Text}
    (hcycle : ImportEdge.IsCycle t paths edges file) (hguard : ImportEdge.PassesGuard edges)
    (hchordless : ImportEdge.IsChordless t edges) :
    ∃ d s path s', s.paths = paths ∧ Loading t d s edges path s' ∧ t.place? path = some file := by
  have hlists := fun e he => hcycle.walk.lists (e := e) he
  obtain ⟨s, hpaths, hcovers⟩ := exists_covers paths fun e he => (hlists e he).1
  obtain ⟨last, hlast, rfl⟩ := hcycle.exists_last
  obtain ⟨ns, hns⟩ : ∃ ns, ∀ e ∈ edges, e.name ≠ ns := by
    obtain ⟨e, rest, rfl⟩ := List.exists_cons_of_ne_nil hcycle.ne_nil
    obtain ⟨hown, -, hlater⟩ := ImportEdge.passesGuard_cons.mp hguard
    exact ⟨e.ns, List.forall_mem_cons.mpr ⟨hown, hlater⟩⟩
  refine ⟨.map (importing ns [last.name]), s, ?_⟩
  -- along the cycle, just the names declared so far have been added to the store
  have hrun : ∀ before after, edges = before ++ after → ∃ path s' middle,
      Loading t (.map (importing ns [last.name])) s before path s' ∧
      t.place? path = some middle ∧ ImportEdge.IsWalk t paths after middle last.target ∧
      ∀ y, s'.namespace? y = none ↔
        y ≠ ns ∧ s.namespace? y = none ∧ ∀ x ∈ before, y ≠ x.ns := by
    intro before
    induction before using List.reverseRecOn with
    | nil =>
        rintro after rfl
        obtain ⟨path, hfind, hplace⟩ := (hlists last hlast).2
        refine ⟨path, _, last.target, .start (starts_importing (List.pairwise_singleton _ _)
          (hns last hlast) (hcovers.names last hlast) ?_), hplace, hcycle.walk, fun y => ?_⟩
        · exact (findNamespace?_congr hpaths last.name).trans hfind
        · simp [namespace?_put_eq_none_iff]
    | append_singleton before e ih =>
        intro after hedges
        rw [List.append_assoc, List.singleton_append] at hedges
        have he : e ∈ edges := by simp [hedges]
        obtain ⟨path, s', middle, hloading, hplace, ⟨rfl, hlist, hfinds, hwalk⟩, hstored⟩ :=
          ih (e :: after) hedges
        have hprogress := hloading.progress hpaths
        have hacross : ∀ x ∈ before, e.name ≠ x.ns := by
          rw [hedges, ImportEdge.passesGuard_append] at hguard
          exact fun x hx => hguard.2.2 x hx e (by simp)
        have hname : s'.namespace? e.name = none :=
          (hstored e.name).mpr ⟨hns e he, hcovers.names e he, hacross⟩
        obtain ⟨entries, y, hreads, hdeclared, hlisty, hyns, hynew, hstarts⟩ :=
          exists_starts hprogress.paths_eq hlist hplace hprogress.isFile (hguard.own e he) hname
        obtain ⟨-, hys, hybefore⟩ := (hstored y).mp hynew
        have hy : y = e.name := by
          obtain ⟨e', he', rfl⟩ := hcovers.exists_edge he hlisty hys
          refine hchordless before e after hedges e' he' hlisty ?_
          exact List.forall_mem_append.mpr ⟨hybefore, List.forall_mem_singleton.mpr hyns⟩
        subst hy
        obtain ⟨path', -, hplace', hstart⟩ := hstarts e.target hfinds
        refine ⟨path', _, e.target, .nest hloading hplace hreads hdeclared hstart hplace', hplace',
          hwalk, fun y => ?_⟩
        rw [namespace?_clear, namespace?_put_eq_none_iff, hstored, List.forall_mem_append,
          List.forall_mem_singleton]
        tauto
  obtain ⟨path, s', middle, hloading, hplace, rfl, -⟩ := hrun edges [] (by simp)
  exact ⟨path, s', hpaths, hloading, hplace⟩

/-- A cycle in which no file declares a name of the cycle is gone round for ever: a
store and a namespace for which loads are inside one another to any depth. -/
theorem exists_loading_unbounded {edges : List ImportEdge} {file : List Text}
    (hcycle : ImportEdge.IsCycle t paths edges file)
    (hne : ∀ e ∈ edges, ∀ e' ∈ edges, e'.name ≠ e.ns) :
    ∃ d s, s.paths = paths ∧ ∀ n, ∃ nested path s', Loading t d s nested path s' ∧
      nested.length = n := by
  have hlists := fun e he => hcycle.walk.lists (e := e) he
  obtain ⟨s, hpaths, hcovers⟩ := exists_covers paths fun e he => (hlists e he).1
  obtain ⟨last, hlast, rfl⟩ := hcycle.exists_last
  refine ⟨.map (importing last.ns [last.name]), s, hpaths, fun n => ?_⟩
  -- the names of the cycle are never stored, so its files go on importing one another
  have hrun : ∃ nested path s', Loading t (.map (importing last.ns [last.name])) s nested path s' ∧
      nested.length = n ∧ (∃ e ∈ edges, t.place? path = some e.file) ∧ Covers t edges s' := by
    induction n with
    | zero =>
        obtain ⟨path, hfind, hplace⟩ := (hlists last hlast).2
        obtain ⟨e, he, hfile⟩ := hcycle.exists_next hlast
        refine ⟨[], path, _, .start (starts_importing (List.pairwise_singleton _ _)
          (hne last hlast last hlast) (hcovers.names last hlast) ?_), rfl, ⟨e, he, hfile ▸ hplace⟩,
          hcovers.put (hne last hlast) _⟩
        exact (findNamespace?_congr hpaths last.name).trans hfind
    | succ n ih =>
        obtain ⟨nested, path, s', hloading, hlength, ⟨e, he, hplace⟩, hcovers⟩ := ih
        have hprogress := hloading.progress hpaths
        obtain ⟨entries, y, hreads, hdeclared, hlisty, -, hynew, hstarts⟩ :=
          exists_starts hprogress.paths_eq (hlists e he).1 hplace hprogress.isFile
            (hne e he e he) (hcovers.names e he)
        obtain ⟨e', he', rfl⟩ := hcovers.exists_edge he hlisty hynew
        obtain ⟨path', -, hplace', hstart⟩ := hstarts e'.target (hlists e' he').2
        obtain ⟨next, hnext, hfile⟩ := hcycle.exists_next he'
        exact ⟨_, path', _, .nest hloading hplace hreads hdeclared hstart hplace',
          by simp [hlength], ⟨next, hnext, hfile ▸ hplace'⟩, hcovers.put (hne e he) entries⟩
  obtain ⟨nested, path, s', hloading, hlength, -⟩ := hrun
  exact ⟨nested, path, s', hloading, hlength⟩

section

variable {depth depth' : Nat} {d : Datum} {s : Store}

theorem each_loadImport_congr {entries : List (Key × Datum)} {ns : Text}
    (hns : declared? (.map entries) = some ns)
    (h : ∀ name path s', Starts t (.map entries) s name path s' →
      loadFileWithin t depth path s' = loadFileWithin t depth' path s') :
    Outcome.each (loadImport t (loadFileWithin t depth) ns) (importNames entries)
        (s.put ns entries) =
      Outcome.each (loadImport t (loadFileWithin t depth') ns) (importNames entries)
        (s.put ns entries) := by
  let loaded (names : List Text) : Outcome :=
    Outcome.each (loadImport t (loadFileWithin t depth) ns) names (s.put ns entries)
  have hrest : ∀ rest before, importNames entries = before ++ rest → (loaded before).fault = none →
      Outcome.each (loadImport t (loadFileWithin t depth) ns) rest (loaded before).store =
        Outcome.each (loadImport t (loadFileWithin t depth') ns) rest (loaded before).store := by
    intro rest
    induction rest with
    | nil => exact fun _ _ _ => rfl
    | cons name rest ih =>
        intro before hnames hfault
        have hname : loadImport t (loadFileWithin t depth) ns name (loaded before).store =
            loadImport t (loadFileWithin t depth') ns name (loaded before).store := by
          unfold loadImport
          split
          · rfl
          · rename_i hnew
            rw [Bool.or_eq_true, not_or, Option.not_isSome_iff_eq_none] at hnew
            unfold fetchImport
            split
            · rfl
            · rfl
            · rename_i path hfind
              rw [h name path (loaded before).store.clear ⟨depth, entries, ns, before, rest, rfl,
                hns, hnames, hfault, rfl, hnew.1, hfind⟩]
        rw [Outcome.each_cons, Outcome.each_cons, hname]
        refine Outcome.andThen_congr fun hdone => ?_
        rw [← hname] at hdone ⊢
        obtain ⟨hstore, hfault'⟩ := Outcome.each_concat hfault name
        rw [← hstore]
        exact ih (before ++ [name]) (by simp [hnames]) (hfault'.trans hdone)
  exact hrest (importNames entries) [] rfl rfl

theorem submitWith_congr (h : ∀ name path s', Starts t d s name path s' →
      loadFileWithin t depth path s' = loadFileWithin t depth' path s') :
    submitWith t (loadFileWithin t depth) d s = submitWith t (loadFileWithin t depth') d s := by
  unfold submitWith
  split
  · rename_i entries
    split
    · rfl
    · rename_i ns hns
      have hloads : loadImports t (loadFileWithin t depth) ns
            ((Key.lookup? imports entries).getD .nil) (s.put ns entries) =
          loadImports t (loadFileWithin t depth') ns
            ((Key.lookup? imports entries).getD .nil) (s.put ns entries) := by
        unfold loadImports
        split
        · rfl
        split
        · rfl
        · rename_i names hnames
          have hall := each_loadImport_congr hns h
          simp only [importNames, hnames, Option.getD_some] at hall
          exact hall
      dsimp only
      rw [hloads]
  · rfl

/-- Where loads are inside one another to a depth below `n`, all bounds that leave
room for what is still to come give the same load. -/
theorem Loading.loadFileWithin_eq {n : Nat}
    (hbound : ∀ edges path s', Loading t d s edges path s' → edges.length < n) (k : Nat) :
    ∀ edges path s', Loading t d s edges path s' → edges.length + k = n →
      ∀ depth depth', k ≤ depth → k ≤ depth' →
        loadFileWithin t depth path s' = loadFileWithin t depth' path s' := by
  induction k with
  | zero =>
      intro edges path s' hloading hn
      exact absurd hn (hbound edges path s' hloading).ne
  | succ k ih =>
      intro edges path s' hloading hn depth depth' hdepth hdepth'
      obtain ⟨depth, rfl⟩ := Nat.exists_eq_add_of_le' (Nat.lt_of_lt_of_le k.succ_pos hdepth)
      obtain ⟨depth', rfl⟩ := Nat.exists_eq_add_of_le' (Nat.lt_of_lt_of_le k.succ_pos hdepth')
      obtain ⟨-, file, hfile⟩ := FileTree.exists_place_of_isFile (hloading.progress rfl).isFile
      simp only [loadFileWithin]
      split
      · rfl
      · rfl
      · rename_i text htext
        split
        · rfl
        · rfl
        · rename_i d' hd'
          refine submitWith_congr fun name path' s'' hstart => ?_
          obtain ⟨entries, ns, -, hns, -, -, -, -, hfind⟩ := hstart.spec
          obtain ⟨-, file', hfile'⟩ :=
            FileTree.exists_place_of_isFile (isFile_of_findNamespace? hfind)
          refine ih _ path' s'' (.nest hloading hfile ⟨text, htext, hd'⟩ hns hstart hfile') ?_
            depth depth' (by omega) (by omega)
          rw [List.length_append, List.length_singleton]
          omega

end

/-- In each cycle of imports there is a file that declares a name of the cycle. -/
def EndsLoading (t : FileTree) (paths : List Path) : Prop :=
  ∀ cycle file, ImportEdge.IsCycle t paths cycle file → ∃ e ∈ cycle, ∃ e' ∈ cycle, e'.name = e.ns

theorem Loading.length_lt_loadDepth {d : Datum} {s s' : Store} {edges : List ImportEdge}
    {path : Path} (hends : EndsLoading t s.paths) (h : Loading t d s edges path s') :
    edges.length < t.loadDepth := by
  by_contra hlong
  have hprogress := h.progress rfl
  obtain ⟨first, file, -, hwalk⟩ := hprogress.walk
  have hlong' : (t.fileCount + 1) * t.fileCount < edges.length := by
    rw [FileTree.loadDepth] at hlong
    have hmul := Nat.mul_le_mul_left (t.fileCount + 1) (Nat.le_add_right t.fileCount 1)
    omega
  obtain ⟨cycle, middle, hcycle, hne⟩ := hwalk.exists_endless hprogress.guard hlong'
  obtain ⟨e, he, e', he', hname⟩ := hends cycle middle hcycle
  exact hne e he e' he' hname

/-- The bound of a submission is not reached if loading ends: a larger one gives the
same. -/
theorem submitWith_eq_submit {d : Datum} {s : Store} (hends : EndsLoading t s.paths) {depth : Nat}
    (hdepth : t.loadDepth ≤ depth) :
    submitWith t (loadFileWithin t depth) d s = s.submit t d := by
  have hbound : ∀ edges path s', Loading t d s edges path s' → edges.length < t.loadDepth :=
    fun _ _ _ h => h.length_lt_loadDepth hends
  unfold submit
  refine submitWith_congr fun name path s' hstart => ?_
  exact Loading.loadFileWithin_eq hbound t.loadDepth [] path s' (.start hstart) (by simp) depth
    t.loadDepth hdepth le_rfl

/-- When loading gets back to a file in progress, and when it does not end. Let a
store look in some directories. No submission to it loads a file while this is in
progress exactly if each cycle of imports has a name that was declared on the way to
it. The loads of each submission are inside one another to a bounded depth, so that
the bound of `submit` is not reached, exactly if each cycle has a name that is
declared anywhere in it. -/
theorem loading_iff (t : FileTree) (paths : List Path) :
    ((∀ d s edges path s', s.paths = paths → Loading t d s edges path s' →
        ∀ e ∈ edges, t.place? path ≠ some e.file) ↔
      ∀ cycle file, ImportEdge.IsCycle t paths cycle file → ¬ ImportEdge.PassesGuard cycle) ∧
    ((∀ d s, s.paths = paths → ∃ n,
        (∀ edges path s', Loading t d s edges path s' → edges.length < n) ∧
        ∀ depth, n ≤ depth → submitWith t (loadFileWithin t depth) d s = s.submit t d) ↔
      EndsLoading t paths) := by
  refine ⟨⟨?_, ?_⟩, ?_, ?_⟩
  · intro h cycle file hcycle hguard
    obtain ⟨edges, first, hcycle, hguard, hchordless⟩ :=
      ImportEdge.exists_isChordless hcycle hguard
    obtain ⟨d, s, path, s', hpaths, hloading, hplace⟩ :=
      exists_loading_round hcycle hguard hchordless
    obtain ⟨e, edges, rfl⟩ := List.exists_cons_of_ne_nil hcycle.ne_nil
    refine h d s _ path s' hpaths hloading e List.mem_cons_self ?_
    rw [hplace, hcycle.walk.1]
  · intro h d s edges path s' hpaths hloading e he hplace
    obtain ⟨cycle, file, hcycle, hguard⟩ := (hloading.progress hpaths).exists_cycle he hplace
    exact h cycle file hcycle hguard
  · intro h cycle file hcycle
    by_contra hne
    have hne' : ∀ e ∈ cycle, ∀ e' ∈ cycle, e'.name ≠ e.ns :=
      fun e he e' he' hname => hne ⟨e, he, e', he', hname⟩
    obtain ⟨d, s, hpaths, hunbounded⟩ := exists_loading_unbounded hcycle hne'
    obtain ⟨n, hn, -⟩ := h d s hpaths
    obtain ⟨edges, path, s', hloading, hlength⟩ := hunbounded n
    exact (hn edges path s' hloading).ne hlength
  · rintro hends d s rfl
    exact ⟨t.loadDepth, fun _ _ _ h => h.length_lt_loadDepth hends,
      fun _ hdepth => submitWith_eq_submit hends hdepth⟩

end

/-- The file `a.edn` declares another name than `a`. It imports `b`, which imports
`a`, and so it is loaded again while it is in progress. -/
theorem loading_reenters :
    let t : FileTree := ⟨⟨.single, ["ws"]⟩,
      [(["ws", "a.edn"], .file (Utf8.encode "{ns x import #{b c}}")),
        (["ws", "b.edn"], .file (Utf8.encode "{ns b import #{a d}}")),
        (["ws", "c.edn"], .file (Utf8.encode "{ns c}")),
        (["ws", "d.edn"], .file (Utf8.encode "{ns d}"))], []⟩
    ∃ d edges path s', readDatum "{ns app import #{a}}" = .ok d ∧
      Loading t d (.empty [⟨.relative, []⟩]) edges path s' ∧
      ∃ e ∈ edges, t.place? path = some e.file := by
  intro t
  have hreadsA : Reads t ⟨.relative, ["a.edn"]⟩ (.map (importing "x" ["b", "c"])) :=
    ⟨"{ns x import #{b c}}", by decide +kernel, by decide +kernel⟩
  have hreadsB : Reads t ⟨.relative, ["b.edn"]⟩ (.map (importing "b" ["a", "d"])) :=
    ⟨"{ns b import #{a d}}", by decide +kernel, by decide +kernel⟩
  have hplaceA : t.place? ⟨.relative, ["a.edn"]⟩ = some (["ws", "a.edn"] : List Text) := by
    decide +kernel
  have hplaceB : t.place? ⟨.relative, ["b.edn"]⟩ = some (["ws", "b.edn"] : List Text) := by
    decide +kernel
  have houter : Loading t (.map (importing "app" ["a"])) (.empty [⟨.relative, []⟩]) []
      ⟨.relative, ["a.edn"]⟩ _ :=
    .start (starts_importing (by decide) (by decide) rfl (by decide +kernel))
  have hA := houter.nest hplaceA hreadsA rfl
    (starts_importing (by decide) (by decide) (by decide +kernel) (by decide +kernel)) hplaceB
  have hB := hA.nest hplaceB hreadsB rfl
    (starts_importing (by decide) (by decide) (by decide +kernel) (by decide +kernel)) hplaceA
  exact ⟨_, _, _, _, by decide +kernel, hB, _, List.mem_cons_self, hplaceA⟩

end Store

end EdnLint
