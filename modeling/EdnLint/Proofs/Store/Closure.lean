import EdnLint.Proofs.Store.Issues
import EdnLint.Proofs.Store.Lookup
import EdnLint.Proofs.Store.NestedLoads
import Mathlib.Logic.Relation

/-!
# The closure of a submission

Where each file declares the name it is looked up by, loading imports only adds to the
store. What is stored stays as it is, since a file is loaded only for a name that is not
stored. What is added has been read from the file of its name, and its imports are
settled: they are stored as well, unless they cannot be had from any file
(`Store.Settled`). A name that is not stored after its own load will not be stored by a
later one either, which would have to read it from the same file, so an import is
reported exactly if it is missing in the end.

The invariant is `Store.Grows`. It composes, so a row of imports has it if each of them
does, and nested loads have it by induction on their depth.
-/

namespace EdnLint

open Vocabulary

namespace Store

variable {t : FileTree} {load : Path → Store → Outcome} {ns name : Text} {s s' : Store}
  {entries : List (Key × Datum)}

/-- A file that a name is looked up at declares no other name. -/
def DeclaresNames (t : FileTree) (paths : List Path) : Prop :=
  ∀ name path entries ns, (Store.empty paths).findNamespace? t name = .ok (some path) →
    Reads t path (.map entries) → declared? (.map entries) = some ns → ns = name

theorem DeclaresNames.eq (h : DeclaresNames t s.paths) {path : Path}
    (hfind : s.findNamespace? t name = .ok (some path)) (hreads : Reads t path (.map entries))
    (hns : declared? (.map entries) = some ns) : ns = name :=
  h name path entries ns ((findNamespace?_congr rfl name).trans hfind) hreads hns

/-- On a cycle of imports every file declares the name it is imported by. -/
theorem DeclaresNames.endsLoading {paths : List Path} (h : DeclaresNames t paths) :
    EndsLoading t paths := by
  intro cycle file hcycle
  obtain ⟨e, he⟩ := List.exists_mem_of_ne_nil cycle hcycle.ne_nil
  obtain ⟨next, hnext, hfile⟩ := hcycle.exists_next he
  obtain ⟨path, entries, hplace, hreads, hns, -⟩ := (hcycle.walk.lists hnext).1
  obtain ⟨path', hfind, hplace'⟩ := (hcycle.walk.lists he).2
  have hrefusal := (FileTree.exists_place_of_isFile (isFile_of_findNamespace? hfind)).1
  have hreads' := hreads.of_place (hplace.trans (congrArg some hfile)) hplace' hrefusal
  exact ⟨next, hnext, e, he, (h e.name path' entries next.ns hfind hreads' hns).symm⟩

/-- No file gives the namespace: the lookup comes to an end and finds none for the name,
or the one that it finds does not read as a namespace. -/
def Unavailable (t : FileTree) (s : Store) (name : Text) : Prop :=
  ∃ found, s.findNamespace? t name = .ok found ∧
    ∀ path ∈ found, ∀ entries, Reads t path (.map entries) → declared? (.map entries) = none

/-- There is nothing more to be done about an import. -/
def Settled (t : FileTree) (s : Store) (name : Text) : Prop :=
  (s.namespace? name).isSome ∨ s.Unavailable t name

/-- The first namespace is stored and imports the second. -/
def Imports (s : Store) (name imported : Text) : Prop :=
  ∃ entries, s.namespace? name = some entries ∧ imported ∈ importNames entries

/-- The second store has what the first has, and besides namespaces read from their
files, which imports lead to from the names `roots` and whose own imports are settled. -/
structure Grows (t : FileTree) (roots : List Text) (s s' : Store) : Prop where
  paths : s'.paths = s.paths
  kept : ∀ name entries, s.namespace? name = some entries → s'.namespace? name = some entries
  source : ∀ name entries, s.namespace? name = none → s'.namespace? name = some entries →
    ∃ path, s.findNamespace? t name = .ok (some path) ∧ Reads t path (.map entries) ∧
      declared? (.map entries) = some name
  settled : ∀ name entries, s.namespace? name = none → s'.namespace? name = some entries →
    ∀ i ∈ importNames entries, s'.Settled t i
  reached : ∀ name, s.namespace? name = none → (s'.namespace? name).isSome →
    ∃ root ∈ roots, Relation.ReflTransGen s'.Imports root name

namespace Grows

variable {roots roots' : List Text} {s₁ s₂ s₃ : Store}

theorem refl (t : FileTree) (roots : List Text) (s : Store) : Grows t roots s s := by
  refine ⟨rfl, fun _ _ h => h, ?_, ?_, ?_⟩
  · exact fun _ _ hnone hsome => absurd (hnone.symm.trans hsome) (by simp)
  · exact fun _ _ hnone hsome => absurd (hnone.symm.trans hsome) (by simp)
  · exact fun _ hnone hsome => absurd hsome (by simp [hnone])

theorem stored (h : Grows t roots s₁ s₂) (hname : (s₁.namespace? name).isSome) :
    (s₂.namespace? name).isSome := by
  obtain ⟨entries, hentries⟩ := Option.isSome_iff_exists.mp hname
  exact Option.isSome_iff_exists.mpr ⟨entries, h.kept name entries hentries⟩

theorem settle (h : Grows t roots s₁ s₂) (hname : s₁.Settled t name) : s₂.Settled t name := by
  rcases hname with hstored | hunavailable
  · exact Or.inl (h.stored hstored)
  · obtain ⟨found, hfind, hnone⟩ := hunavailable
    exact Or.inr ⟨found, (findNamespace?_congr h.paths name).trans hfind, hnone⟩

/-- Later loads do not store an import that is settled without being stored. -/
theorem isSome_iff (h : Grows t roots s₁ s₂) (hname : s₁.Settled t name) :
    (s₂.namespace? name).isSome ↔ (s₁.namespace? name).isSome := by
  refine ⟨fun hsome => ?_, h.stored⟩
  rcases hname with hstored | ⟨found, hfound, hnone⟩
  · exact hstored
  · by_contra hnew
    obtain ⟨entries, hentries⟩ := Option.isSome_iff_exists.mp hsome
    obtain ⟨path, hfind, hreads, hns⟩ :=
      h.source name entries (Option.not_isSome_iff_eq_none.mp hnew) hentries
    obtain rfl : found = some path := Except.ok.inj (hfound.symm.trans hfind)
    cases (hnone path rfl entries hreads).symm.trans hns

theorem imports_mono (h : Grows t roots s₁ s₂) {a b : Text} (hab : s₁.Imports a b) :
    s₂.Imports a b := by
  obtain ⟨entries, hentries, hb⟩ := hab
  exact ⟨entries, h.kept a entries hentries, hb⟩

theorem trans (h : Grows t roots s₁ s₂) (h' : Grows t roots' s₂ s₃) :
    Grows t (roots ++ roots') s₁ s₃ := by
  refine ⟨h'.paths.trans h.paths, fun name entries hs => h'.kept _ _ (h.kept _ _ hs), ?_, ?_, ?_⟩
  · intro name entries hnone hsome
    cases hmiddle : s₂.namespace? name with
    | some middle =>
        obtain rfl : middle = entries :=
          Option.some_inj.mp ((h'.kept _ _ hmiddle).symm.trans hsome)
        exact h.source name middle hnone hmiddle
    | none =>
        obtain ⟨path, hfind, hread⟩ := h'.source name entries hmiddle hsome
        exact ⟨path, (findNamespace?_congr h.paths.symm name).trans hfind, hread⟩
  · intro name entries hnone hsome i hi
    cases hmiddle : s₂.namespace? name with
    | some middle =>
        obtain rfl : middle = entries :=
          Option.some_inj.mp ((h'.kept _ _ hmiddle).symm.trans hsome)
        exact h'.settle (h.settled name middle hnone hmiddle i hi)
    | none => exact h'.settled name entries hmiddle hsome i hi
  · intro name hnone hsome
    cases hmiddle : s₂.namespace? name with
    | some middle =>
        obtain ⟨root, hroot, hreach⟩ := h.reached name hnone (by simp [hmiddle])
        refine ⟨root, List.mem_append_left _ hroot, ?_⟩
        exact Relation.ReflTransGen.mono (fun _ _ => h'.imports_mono) _ _ hreach
    | none =>
        obtain ⟨root, hroot, hreach⟩ := h'.reached name hmiddle hsome
        exact ⟨root, List.mem_append_right _ hroot, hreach⟩

theorem setIssues (h : Grows t roots s₁ s₂) (before after : List Issue) :
    Grows t roots { s₁ with issues := before } { s₂ with issues := after } :=
  ⟨h.paths, h.kept, h.source, h.settled, h.reached⟩

section

variable (h : Grows t (importNames entries) (s.put ns entries) s')

include h

theorem namespace?_put : s'.namespace? ns = some entries :=
  h.kept ns entries (Members.get?_put_self ns entries s.namespaces)

/-- What is stored behind a namespace is reached from it. -/
theorem reached_put (hnew : name = ns ∨ s.namespace? name = none)
    (hname : (s'.namespace? name).isSome) : Relation.ReflTransGen s'.Imports ns name := by
  by_cases heq : name = ns
  · rw [heq]
  · have hnone : (s.put ns entries).namespace? name = none := by
      rw [namespace?_put_eq_none_iff]
      exact ⟨heq, hnew.resolve_left heq⟩
    obtain ⟨root, hroot, hreach⟩ := h.reached name hnone hname
    exact .head ⟨entries, h.namespace?_put, hroot⟩ hreach

theorem settled_put (hsettled : ∀ i ∈ importNames entries, s'.Settled t i)
    (hnew : name = ns ∨ s.namespace? name = none) {stored : List (Key × Datum)}
    (hname : s'.namespace? name = some stored) : ∀ i ∈ importNames stored, s'.Settled t i := by
  by_cases heq : name = ns
  · subst heq
    obtain rfl : entries = stored := Option.some_inj.mp (h.namespace?_put.symm.trans hname)
    exact hsettled
  · have hnone : (s.put ns entries).namespace? name = none := by
      rw [namespace?_put_eq_none_iff]
      exact ⟨heq, hnew.resolve_left heq⟩
    exact h.settled name stored hnone hname

theorem kept_put {stored : List (Key × Datum)} (hne : name ≠ ns)
    (hname : s.namespace? name = some stored) : s'.namespace? name = some stored :=
  h.kept name stored ((Members.get?_put_of_ne hne entries s.namespaces).trans hname)

/-- A new namespace that is read from its file makes the store grow, once its imports
are dealt with. -/
theorem of_put {path : Path} (hnew : s.namespace? ns = none)
    (hfind : s.findNamespace? t ns = .ok (some path)) (hreads : Reads t path (.map entries))
    (hns : declared? (.map entries) = some ns)
    (hsettled : ∀ i ∈ importNames entries, s'.Settled t i) : Grows t [ns] s s' := by
  refine ⟨h.paths, ?_, ?_, ?_, ?_⟩
  · intro name stored hname
    have hne : name ≠ ns := by
      rintro rfl
      rw [hnew] at hname
      cases hname
    exact h.kept_put hne hname
  · intro name stored hnone hname
    by_cases heq : name = ns
    · subst heq
      obtain rfl : entries = stored := Option.some_inj.mp (h.namespace?_put.symm.trans hname)
      exact ⟨path, hfind, hreads, hns⟩
    · exact h.source name stored (namespace?_put_eq_none_iff.mpr ⟨heq, hnone⟩) hname
  · exact fun name stored hnone hname => h.settled_put hsettled (Or.inr hnone) hname
  · intro name hnone hname
    exact ⟨ns, List.mem_singleton_self ns, h.reached_put (Or.inr hnone) hname⟩

end

end Grows

end Store

namespace Issue

/-- The issue of an import that is not stored. -/
def unresolvedImport (name : Text) : Issue :=
  ⟨("Could not resolve import '" : Text) ++ name, [imports], none, .none, none⟩

/-- Whether an issue says that an import is not stored. -/
def isUnresolved (name : Text) (i : Issue) : Bool :=
  i.resource.isNone && i.message == ("Could not resolve import '" : Text) ++ name

theorem isUnresolved_unresolvedImport {name other : Text} :
    (unresolvedImport other).isUnresolved name = true ↔ other = name := by
  simp [isUnresolved, unresolvedImport]

end Issue

namespace Store

/-- Loading the file of a name that is not stored makes the store grow, and the name is
settled. -/
def Settles (t : FileTree) (paths : List Path) (load : Path → Store → Outcome) : Prop :=
  ∀ name path s, s.paths = paths → s.findNamespace? t name = .ok (some path) →
    s.namespace? name = none → (load path s).fault = none →
    Grows t [name] s (load path s).store ∧ (load path s).store.Settled t name

section

variable {t : FileTree} {paths : List Path} {load : Path → Store → Outcome} {ns name : Text}
  {s : Store} {entries : List (Key × Datum)} (hload : Settles t paths load)

include hload

theorem fetchImport_grows (hpaths : s.paths = paths) (hnew : s.namespace? name = none)
    (h : (fetchImport t load name s).fault = none) :
    Grows t [name] s (fetchImport t load name s).store ∧
      (fetchImport t load name s).store.Settled t name := by
  unfold fetchImport at h ⊢
  split at h
  · cases h
  · rename_i hfind
    exact ⟨Grows.refl t _ s, Or.inr ⟨none, hfind, by simp⟩⟩
  · rename_i path hfind
    rw [Outcome.andThen_fault_eq_none_iff] at h
    rw [Outcome.andThen_store h.1]
    obtain ⟨hgrows, hsettled⟩ := hload name path s.clear hpaths hfind hnew h.1
    exact ⟨hgrows.setIssues s.issues s.issues, hsettled⟩

/-- An import is reported if it is not stored when its turn is over. -/
theorem loadImport_grows (hpaths : s.paths = paths) (hns : (s.namespace? ns).isSome)
    (h : (loadImport t load ns name s).fault = none) :
    Grows t [name] s (loadImport t load ns name s).store ∧
      (loadImport t load ns name s).store.Settled t name ∧
      (loadImport t load ns name s).store.issues = s.issues ++
        if ((loadImport t load ns name s).store.namespace? name).isSome then []
        else [.unresolvedImport name] := by
  revert h
  unfold loadImport
  split
  · rename_i hstored
    intro _
    have hsome : (s.namespace? name).isSome := by
      rw [Bool.or_eq_true, decide_eq_true_eq] at hstored
      rcases hstored with hstored | rfl
      · exact hstored
      · exact hns
    exact ⟨Grows.refl t _ s, Or.inl hsome, by simp [Outcome.done, hsome]⟩
  · rename_i hnew
    intro h
    rw [Bool.or_eq_true, not_or, Option.not_isSome_iff_eq_none] at hnew
    rw [Outcome.andThen_fault_eq_none_iff] at h
    rw [Outcome.andThen_store h.1]
    obtain ⟨hgrows, hsettled⟩ := fetchImport_grows hload hpaths hnew.1 h.1
    have hissues := fetchImport_issues t load h.1
    unfold settleImport
    split
    · rename_i hsome
      exact ⟨hgrows, hsettled, by simp [Outcome.done, hsome, hissues]⟩
    · rename_i hnone
      refine ⟨hgrows.setIssues s.issues _, hsettled, ?_⟩
      rw [namespace?_record, if_neg hnone]
      exact congrArg (· ++ [Issue.unresolvedImport name]) hissues

theorem each_loadImport_grows {names : List Text} (hpaths : s.paths = paths)
    (hns : (s.namespace? ns).isSome)
    (h : (Outcome.each (loadImport t load ns) names s).fault = none) :
    let s' := (Outcome.each (loadImport t load ns) names s).store
    Grows t names s s' ∧ (∀ i ∈ names, s'.Settled t i) ∧
      s'.issues = s.issues ++
        (names.filter fun i => (s'.namespace? i).isNone).map Issue.unresolvedImport := by
  induction names generalizing s with
  | nil => exact ⟨Grows.refl t _ s, by simp, by simp [Outcome.done]⟩
  | cons name names ih =>
      rw [Outcome.each_cons, Outcome.andThen_fault_eq_none_iff] at h
      rw [Outcome.each_cons, Outcome.andThen_store h.1]
      obtain ⟨hgrows, hsettled, hissues⟩ := loadImport_grows hload hpaths hns h.1
      obtain ⟨hrest, hsettleds, hissues'⟩ :=
        ih (hgrows.paths.trans hpaths) (hgrows.stored hns) h.2
      refine ⟨hgrows.trans hrest, List.forall_mem_cons.mpr ⟨hrest.settle hsettled, hsettleds⟩, ?_⟩
      rw [hissues', hissues, List.append_assoc, List.filter_cons]
      have hiff := hrest.isSome_iff hsettled
      by_cases hsome : ((loadImport t load ns name s).store.namespace? name).isSome
      · simp [hsome, Option.isNone_iff_eq_none, ← Option.not_isSome_iff_eq_none, hiff]
      · simp [hsome, Option.isNone_iff_eq_none, ← Option.not_isSome_iff_eq_none, hiff]

/-- Without a list of symbols there are no imports to deal with. -/
theorem loadImports_grows (hpaths : s.paths = paths) (hns : (s.namespace? ns).isSome)
    (h : (loadImports t load ns ((Key.lookup? imports entries).getD .nil) s).fault = none) :
    let s' := (loadImports t load ns ((Key.lookup? imports entries).getD .nil) s).store
    Grows t (importNames entries) s s' ∧ (∀ i ∈ importNames entries, s'.Settled t i) ∧
      ((symbolNames? ((Key.lookup? imports entries).getD .nil)).isSome →
        s'.issues = s.issues ++ ((importNames entries).filter fun i =>
          (s'.namespace? i).isNone).map Issue.unresolvedImport) := by
  generalize hlisted : (Key.lookup? imports entries).getD .nil = listed at h ⊢
  have hnames : importNames entries = (symbolNames? listed).getD [] := by rw [importNames, hlisted]
  revert h
  unfold loadImports
  split
  · rename_i hnil
    have hnone : symbolNames? listed = none := by
      unfold Datum.isNil at hnil
      split at hnil
      · rfl
      · cases hnil
    rw [hnames, hnone]
    exact fun _ => ⟨Grows.refl t _ s, by simp, by simp⟩
  split
  · rename_i hnone
    rw [hnames, hnone]
    exact fun _ => ⟨(Grows.refl t _ s).setIssues s.issues _, by simp, by simp⟩
  · rename_i names hsome
    rw [hnames, hsome]
    intro h
    obtain ⟨hgrows, hsettled, hissues⟩ := each_loadImport_grows hload hpaths hns h
    exact ⟨hgrows, hsettled, fun _ => hissues⟩

/-- What a submission of a namespace comes to: its imports, and then its entries as the
store is by then. -/
theorem submitWith_grows [Pattern.Engine] (hpaths : s.paths = paths)
    (hns : declared? (.map entries) = some ns)
    (h : (submitWith t load (.map entries) s).fault = none) :
    let s' := (submitWith t load (.map entries) s).store
    Grows t (importNames entries) (s.put ns entries) s' ∧
      (∀ i ∈ importNames entries, s'.Settled t i) ∧
      ((symbolNames? ((Key.lookup? imports entries).getD .nil)).isSome →
        s'.issues = s.issues ++ (((importNames entries).filter fun i =>
          (s'.namespace? i).isNone).map Issue.unresolvedImport ++
            (Report.all (entries.map fun e => s'.checkEntry ns e.1 e.2)).issues)) := by
  simp only [submitWith, hns] at h ⊢
  rw [Outcome.andThen_fault_eq_none_iff] at h
  rw [Outcome.andThen_store h.1]
  have hstored : ((s.put ns entries).namespace? ns).isSome :=
    isSome_namespace?_put.mpr (Or.inl rfl)
  obtain ⟨hgrows, hsettled, hissues⟩ :=
    loadImports_grows (s := s.put ns entries) hload hpaths hstored h.1
  refine ⟨hgrows.setIssues _ _, hsettled, fun hsymbols => ?_⟩
  rw [← List.append_assoc]
  exact congrArg (· ++ _) (hissues hsymbols)

end

section

variable {t : FileTree} {paths : List Path}

theorem loadFileWithin_settles [Pattern.Engine] (hnames : DeclaresNames t paths) (depth : Nat) :
    Settles t paths (loadFileWithin t depth) := by
  induction depth with
  | zero => exact fun name path s _ _ _ h => absurd h (by simp [loadFileWithin, Outcome.stopped])
  | succ depth ih =>
      intro name path s hpaths hfind hnew h
      have hunread : (∀ entries, Reads t path (.map entries) → declared? (.map entries) = none) →
          s.Unavailable t name := by
        intro hreads
        refine ⟨some path, hfind, fun path' hpath' => ?_⟩
        obtain rfl : path = path' := Option.some_inj.mp hpath'
        exact hreads
      unfold loadFileWithin at h ⊢
      dsimp only at h ⊢
      split at h
      · rename_i htext
        refine ⟨Grows.refl t _ s, Or.inr (hunread ?_)⟩
        rintro entries ⟨text, htext', -⟩
        cases htext.symm.trans htext'
      · cases h
      · rename_i text htext
        split at h
        · rename_i hdatum
          refine ⟨Grows.refl t _ s, Or.inr (hunread ?_)⟩
          rintro entries ⟨text', htext', hdatum'⟩
          cases htext.symm.trans htext'
          cases hdatum.symm.trans hdatum'
        · cases h
        · rename_i d hdatum
          have hreads : Reads t path d := ⟨text, htext, hdatum⟩
          cases hns : declared? d with
          | none =>
              obtain ⟨r, hrecord, -⟩ := submitWith_of_not_declared (t := t) (s := s) hns
              rw [hrecord]
              refine ⟨(Grows.refl t _ s).setIssues s.issues _, Or.inr (hunread ?_)⟩
              exact fun entries hreads' => hreads.unique hreads' ▸ hns
          | some ns =>
              obtain ⟨entries, rfl⟩ := exists_map_of_declared hns
              subst hpaths
              obtain rfl : ns = name := hnames.eq hfind hreads hns
              obtain ⟨hgrows, hsettled, -⟩ := submitWith_grows ih rfl hns h
              refine ⟨hgrows.of_put hnew hfind hreads hns hsettled, Or.inl ?_⟩
              simp [hgrows.namespace?_put]

end

theorem checkEntry_not_isUnresolved [Pattern.Engine] (s : Store) (ns : Text) (k : Key) (d : Datum)
    (name : Text) : (s.checkEntry ns k d).Every fun i => i.isUnresolved name = false := by
  unfold checkEntry
  split
  · exact Report.every_none
  split
  · intro i hi
    obtain ⟨message, hmessage, rfl⟩ := Report.mem_problem hi
    cases hmessage
    rfl
  · exact List.forall_mem_map.mpr fun _ _ => rfl

theorem countP_isUnresolved {names : List Text} (hnames : names.Nodup) {name : Text}
    (hname : name ∈ names) (missing : Text → Bool) :
    ((names.filter missing).map Issue.unresolvedImport).countP (Issue.isUnresolved name) =
      if missing name then 1 else 0 := by
  rw [List.countP_map]
  have hcount : (names.filter missing).countP (Issue.isUnresolved name ∘ Issue.unresolvedImport) =
      (names.filter missing).count name := by
    refine List.countP_congr fun other _ => ?_
    rw [Function.comp_apply, Issue.isUnresolved_unresolvedImport, beq_iff_eq]
  rw [hcount]
  split
  · rename_i hmissing
    exact List.count_eq_one_of_mem (hnames.filter _) (List.mem_filter.mpr ⟨hname, hmissing⟩)
  · rename_i hmissing
    exact List.count_eq_zero.mpr fun h => hmissing (List.mem_filter.mp h).2

/-- What a submission has done to a store, `added` being the issues that came up. -/
structure Incorporates [Pattern.Engine] (t : FileTree) (ns : Text) (entries : List (Key × Datum))
    (s s' : Store) (added : List Issue) : Prop where
  issues : s'.issues = s.issues ++ added
  /-- What came up came up with the namespace itself. -/
  own : ∀ i ∈ added, (∃ name ∈ importNames entries, i = .unresolvedImport name) ∨
    ∃ e ∈ entries, i ∈ (s'.checkEntry ns e.1 e.2).issues
  resource : ∀ i ∈ added, i.resource = none ∨
    ∃ name d, (Key.symbol name, d) ∈ entries ∧ Key.symbol name ≠ Vocabulary.ns ∧
      Key.symbol name ≠ imports ∧ i.resource = some (Name.qualify ns name)
  kept : ∀ name stored, name ≠ ns → s.namespace? name = some stored →
    s'.namespace? name = some stored
  unresolved : ∀ name ∈ importNames entries,
    added.countP (Issue.isUnresolved name) = if (s'.namespace? name).isSome then 0 else 1
  reached : ∀ name, name = ns ∨ s.namespace? name = none → (s'.namespace? name).isSome →
    Relation.ReflTransGen s'.Imports ns name
  settled : ∀ name stored, name = ns ∨ s.namespace? name = none →
    s'.namespace? name = some stored →
    ∀ i ∈ importNames stored, (s'.namespace? i).isSome ∨ s'.Unavailable t i

theorem incorporates_of_grows [Pattern.Engine] {t : FileTree} {ns : Text}
    {entries : List (Key × Datum)} {s s' : Store} (hnames : (importNames entries).Nodup)
    (hgrows : Grows t (importNames entries) (s.put ns entries) s')
    (hsettled : ∀ i ∈ importNames entries, s'.Settled t i)
    (hissues : s'.issues = s.issues ++ (((importNames entries).filter fun i =>
      (s'.namespace? i).isNone).map Issue.unresolvedImport ++
        (Report.all (entries.map fun e => s'.checkEntry ns e.1 e.2)).issues)) :
    ∃ added, Incorporates t ns entries s s' added := by
  have hown : ∀ i ∈ (Report.all (entries.map fun e => s'.checkEntry ns e.1 e.2)).issues,
      ∃ e ∈ entries, i ∈ (s'.checkEntry ns e.1 e.2).issues :=
    Report.every_all (List.forall_mem_map.mpr fun e he i hi => ⟨e, he, hi⟩)
  refine ⟨_, hissues, ?_, ?_, fun _ _ => hgrows.kept_put, ?_, fun _ => hgrows.reached_put,
    fun _ _ hnew hname => hgrows.settled_put hsettled hnew hname⟩
  · intro i hi
    rcases List.mem_append.mp hi with hi | hi
    · obtain ⟨name, hname, rfl⟩ := List.mem_map.mp hi
      exact Or.inl ⟨name, (List.mem_filter.mp hname).1, rfl⟩
    · exact Or.inr (hown i hi)
  · intro i hi
    rcases List.mem_append.mp hi with hi | hi
    · obtain ⟨name, -, rfl⟩ := List.mem_map.mp hi
      exact Or.inl rfl
    · obtain ⟨e, he, hi⟩ := hown i hi
      cases checkEntry_every _ he i hi with
      | entry _ _ _ => exact Or.inl rfl
      | inside hmem hne hne' _ _ => exact Or.inr ⟨_, _, hmem, hne, hne', rfl⟩
  · intro name hname
    have hrest : (Report.all (entries.map fun e => s'.checkEntry ns e.1 e.2)).issues.countP
        (Issue.isUnresolved name) = 0 := by
      rw [List.countP_eq_zero]
      intro i hi
      obtain ⟨e, -, hi⟩ := hown i hi
      simp [checkEntry_not_isUnresolved _ ns e.1 e.2 name i hi]
    rw [List.countP_append, countP_isUnresolved hnames hname, hrest, Nat.add_zero]
    cases s'.namespace? name <;> rfl

/-- Imports are isolated and closed. Where each file declares the name it is looked up
by, loading ends. The issues of a submission are its own, what was stored is not
changed, and what is stored besides is what imports lead to, as far as files give it. -/
theorem submit_incorporates [Pattern.Engine] {t : FileTree} {s : Store}
    {entries : List (Key × Datum)} {ns : Text} {names : List Text}
    (hfiles : DeclaresNames t s.paths)
    (hns : declared? (.map entries) = some ns)
    (himports : Key.lookup? imports entries = some (.set (names.map .symbol)))
    (hnames : names.Nodup) :
    (∃ n, (∀ edges path s', Loading t (.map entries) s edges path s' → edges.length < n) ∧
      ∀ depth, n ≤ depth →
        submitWith t (loadFileWithin t depth) (.map entries) s = s.submit t (.map entries)) ∧
    ((s.submit t (.map entries)).fault = none →
      ∃ added, Incorporates t ns entries s (s.submit t (.map entries)).store added) := by
  have hends := hfiles.endsLoading
  refine ⟨⟨t.loadDepth, fun _ _ _ h => h.length_lt_loadDepth hends,
    fun _ hdepth => submitWith_eq_submit hends hdepth⟩, fun hfault => ?_⟩
  have hlisted : symbolNames? ((Key.lookup? imports entries).getD .nil) =
      some (names.mergeSort Text.le) := by
    rw [himports, Option.getD_some, symbolNames?_symbols]
  have hnodup : (importNames entries).Nodup := by
    rw [importNames, hlisted, Option.getD_some]
    exact (List.mergeSort_perm names Text.le).nodup_iff.mpr hnames
  obtain ⟨hgrows, hsettled, hissues⟩ :=
    submitWith_grows (loadFileWithin_settles hfiles t.loadDepth) rfl hns hfault
  exact incorporates_of_grows hnodup hgrows hsettled (hissues (by rw [hlisted]; rfl))

/-- Two files import each other, and the second has an issue of its own. Both are stored,
and the issue is not reported with the namespace that imports the first. -/
theorem submit_incorporates_cycle :
    let t : FileTree := ⟨⟨.single, ["ws"]⟩,
      [(["ws", "a.edn"], .file (Utf8.encode "{ns a import #{b}}")),
        (["ws", "b.edn"], .file (Utf8.encode "{ns b import #{a} x 5}"))], []⟩
    let s : Store := .empty [⟨.relative, []⟩]
    let entries := importing "app" ["a"]
    let s' := (s.submit t (.map entries)).store
    (s.submit t (.map entries)).fault = none ∧
      s'.namespaces.map (·.1) = ["app", "a", "b"] ∧ s'.issues = [] ∧
      ∃ added, Incorporates t "app" entries s s' added := by
  intro t s entries s'
  have hreadsA : Reads t ⟨.relative, ["a.edn"]⟩ (.map (importing "a" ["b"])) :=
    ⟨"{ns a import #{b}}", by decide +kernel, by decide +kernel⟩
  have hreadsB : Reads t ⟨.relative, ["b.edn"]⟩
      (.map (importing "b" ["a"] ++ [(.symbol "x", .atom (.number (.int 5)))])) :=
    ⟨"{ns b import #{a} x 5}", by decide +kernel, by decide +kernel⟩
  have hplaces : ∀ place ∈ t.filePlaces, place = ["ws", "a.edn"] ∨ place = ["ws", "b.edn"] := by
    decide +kernel
  have hfiles : DeclaresNames t s.paths := by
    intro name path stored ns hfind hreads hns
    obtain ⟨hroot, hplace, hname⟩ := place_of_findNamespace?_here hfind
    obtain ⟨root, names⟩ := path
    obtain rfl : root = .relative := hroot
    have hmem := mem_filePlaces_of_reads hreads hplace
    rcases hplaces _ hmem with hnames | hnames
    · obtain rfl : names = ["a.edn"] := (List.cons.inj hnames).2
      cases hreads.unique hreadsA
      exact (Option.some_inj.mp hns).symm.trans (hname "a" rfl).symm
    · obtain rfl : names = ["b.edn"] := (List.cons.inj hnames).2
      cases hreads.unique hreadsB
      exact (Option.some_inj.mp hns).symm.trans (hname "b" rfl).symm
  have hfault : (s.submit t (.map entries)).fault = none := by decide +kernel
  refine ⟨hfault, by decide +kernel, by decide +kernel, ?_⟩
  exact (submit_incorporates hfiles rfl rfl (by decide)).2 hfault

end Store

end EdnLint
