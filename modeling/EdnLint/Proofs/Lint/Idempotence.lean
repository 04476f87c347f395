import EdnLint.Proofs.Lint.Independence
import EdnLint.Proofs.Store.Closure

/-!
# Linting a document again

A lint changes the store that the next one works with: the namespace of the document is
put there, and the imports that files give. Where each file declares the name it is
looked up by, the second of two lints of one document finds all this in place. What is
stored is not loaded again, and an import that is missing has been tried, so its file, if
there is one, reads without a fault and as no namespace (`Store.IsExhausted`). Trying it
again changes nothing.

Both submissions come to the entries with the same namespaces, and what they report of
the imports depends on the namespaces in the end alone (`Store.importIssues`). So they
leave the same issues, although the first has met a store that was being filled.
-/

namespace EdnLint

open Vocabulary

theorem Members.put_of_get? {α : Type} {name : Text} {value : α} {members : Members α}
    (h : get? name members = some value) : put name value members = members := by
  induction members with
  | nil => cases h
  | cons member rest ih =>
      obtain ⟨known, old⟩ := member
      by_cases hknown : known = name
      · simp_all [get?, put]
      · simp_all [get?, put]

namespace Store

variable {t : FileTree} {ns name : Text} {s : Store} {entries : List (Key × Datum)}
  {depth : Nat} {path : Path}

theorem put_of_namespace? (h : s.namespace? ns = some entries) : s.put ns entries = s := by
  rw [put, Members.put_of_get? h]

/-- No fault stops the reading of a file. -/
def ReadsWithoutFault (t : FileTree) (path : Path) : Prop :=
  ∀ fault, t.readText path ≠ .error (.fault fault) ∧
    ∀ text, t.readText path = .ok text → readDatum text ≠ .error (.fault fault)

/-- The issues of imports that are not stored in the end. -/
def importIssues (s : Store) (names : List Text) : List Issue :=
  (names.filter fun name => (s.namespace? name).isNone).map Issue.unresolvedImport

theorem importIssues_cons (s : Store) (name : Text) (names : List Text) :
    s.importIssues (name :: names) = s.importIssues [name] ++ s.importIssues names := by
  simp only [importIssues, List.filter_cons, List.filter_nil]
  split <;> rfl

variable [Pattern.Engine]

theorem readsWithoutFault_of_loadFileWithin (h : (loadFileWithin t depth path s).fault = none) :
    ReadsWithoutFault t path := by
  cases depth with
  | zero => cases h
  | succ depth =>
      unfold loadFileWithin at h
      dsimp only at h
      split at h
      · rename_i htext
        exact fun fault => ⟨by simp [htext], by simp [htext]⟩
      · cases h
      · rename_i text htext
        refine fun fault => ⟨by simp [htext], fun text' htext' => ?_⟩
        obtain rfl : text = text' := Except.ok.inj (htext.symm.trans htext')
        split at h
        · rename_i hdatum
          simp [hdatum]
        · cases h
        · rename_i hdatum
          simp [hdatum]

/-- A file that reads without a fault and as no namespace leaves at most issues. -/
theorem loadFileWithin_of_not_declared (depth : Nat) (hreads : ReadsWithoutFault t path)
    (hnone : ∀ entries, Reads t path (.map entries) → declared? (.map entries) = none) :
    (loadFileWithin t (depth + 1) path s).fault = none ∧
      ∃ issues, (loadFileWithin t (depth + 1) path s).store = { s with issues := issues } := by
  unfold loadFileWithin
  dsimp only
  split
  · exact ⟨rfl, s.issues, rfl⟩
  · rename_i fault htext
    exact absurd htext (hreads fault).1
  · rename_i text htext
    split
    · exact ⟨rfl, s.issues, rfl⟩
    · rename_i fault hdatum
      exact absurd hdatum ((hreads fault).2 text htext)
    · rename_i d hdatum
      have hdeclared : declared? d = none := by
        cases d with
        | map entries => exact hnone entries ⟨text, htext, hdatum⟩
        | _ => rfl
      obtain ⟨r, hrecord, hfault⟩ := submitWith_of_not_declared hdeclared
      rw [hrecord]
      exact ⟨hfault, _, rfl⟩

/-- Nothing more comes of an import: it is stored, or its file, if there is one, reads
without a fault and as no namespace. -/
def IsExhausted (t : FileTree) (s : Store) (name : Text) : Prop :=
  (s.namespace? name).isSome ∨
    s.Unavailable t name ∧
      ∀ path, s.findNamespace? t name = .ok (some path) → ReadsWithoutFault t path

theorem fetchImport_of_isExhausted (depth : Nat) (h : s.IsExhausted t name)
    (hnew : s.namespace? name = none) :
    (fetchImport t (loadFileWithin t (depth + 1)) name s).fault = none ∧
      (fetchImport t (loadFileWithin t (depth + 1)) name s).store = s := by
  obtain ⟨⟨found, hfind, hnone⟩, hreads⟩ := h.resolve_left (by simp [hnew])
  simp only [fetchImport, hfind]
  cases found with
  | none => exact ⟨rfl, rfl⟩
  | some path =>
      obtain ⟨hfault, issues, hstore⟩ := loadFileWithin_of_not_declared (s := s.clear) depth
        (hreads path hfind) (hnone path rfl)
      rw [Outcome.andThen_fault hfault, Outcome.andThen_store hfault, hstore]
      exact ⟨rfl, rfl⟩

theorem loadImport_of_isExhausted (depth : Nat) (hns : (s.namespace? ns).isSome)
    (h : s.IsExhausted t name) :
    let o := loadImport t (loadFileWithin t (depth + 1)) ns name s
    o.fault = none ∧ o.store = { s with issues := s.issues ++ s.importIssues [name] } := by
  cases hname : s.namespace? name with
  | some stored => simp [loadImport, hname, importIssues, Outcome.done]
  | none =>
      have hne : name ≠ ns := by
        rintro rfl
        simp [hname] at hns
      obtain ⟨hfault, hstore⟩ := fetchImport_of_isExhausted depth h hname
      simp only [loadImport, hname, hne, Option.isSome_none, Bool.false_or, decide_false,
        Bool.false_eq_true, if_false]
      rw [Outcome.andThen_fault hfault, Outcome.andThen_store hfault, hstore]
      have hissues : s.importIssues [name] = [Issue.unresolvedImport name] := by
        simp [importIssues, hname]
      simp only [settleImport, hname, Option.isSome_none, Bool.false_eq_true, if_false, hissues]
      exact ⟨rfl, rfl⟩

theorem each_loadImport_of_isExhausted (depth : Nat) {names : List Text}
    (hns : (s.namespace? ns).isSome) (h : ∀ name ∈ names, s.IsExhausted t name) :
    let o := Outcome.each (loadImport t (loadFileWithin t (depth + 1)) ns) names s
    o.fault = none ∧ o.store = { s with issues := s.issues ++ s.importIssues names } := by
  induction names generalizing s with
  | nil => exact ⟨rfl, by simp [Outcome.done, importIssues]⟩
  | cons name names ih =>
      rw [List.forall_mem_cons] at h
      obtain ⟨hfault, hstore⟩ := loadImport_of_isExhausted depth hns h.1
      obtain ⟨hfault', hstore'⟩ :=
        @ih { s with issues := s.issues ++ s.importIssues [name] } hns h.2
      dsimp only
      rw [Outcome.each_cons, Outcome.andThen_fault hfault, Outcome.andThen_store hfault, hstore,
        hfault', hstore', importIssues_cons s name names, ← List.append_assoc]
      exact ⟨rfl, rfl⟩

/-- An import whose turn is over without a fault is stored, or its file has been read. -/
theorem each_loadImport_reads {names : List Text} (hns : (s.namespace? ns).isSome)
    (h : (Outcome.each (loadImport t (loadFileWithin t depth) ns) names s).fault = none) :
    ∀ name ∈ names,
      ((Outcome.each (loadImport t (loadFileWithin t depth) ns) names s).store.namespace?
        name).isSome ∨
      ∀ path, s.findNamespace? t name = .ok (some path) → ReadsWithoutFault t path := by
  have hkeeps := loadFileWithin_keeps t depth
  induction names generalizing s with
  | nil => exact fun name hname => absurd hname List.not_mem_nil
  | cons name names ih =>
      rw [Outcome.each_cons, Outcome.andThen_fault_eq_none_iff] at h
      rw [Outcome.each_cons, Outcome.andThen_store h.1]
      have hfirst := loadImport_keeps hkeeps h.1
      refine List.forall_mem_cons.mpr ⟨?_, fun other hother => ?_⟩
      · by_cases hstored : (s.namespace? name).isSome || name = ns
        · have hsome : (s.namespace? name).isSome := by
            rw [Bool.or_eq_true, decide_eq_true_eq] at hstored
            exact hstored.elim id fun heq => heq ▸ hns
          have hrest := each_loadImport_keeps hkeeps h.2
          exact Or.inl (hrest.stored name (hfirst.stored name hsome))
        · refine Or.inr fun path hfind => ?_
          have hload := h.1
          rw [loadImport, if_neg hstored, Outcome.andThen_fault_eq_none_iff, fetchImport,
            hfind] at hload
          exact readsWithoutFault_of_loadFileWithin (Outcome.andThen_fault_eq_none_iff.mp hload.1).1
      · refine (ih (hfirst.stored ns hns) h.2 other hother).imp_right fun hreads path hfind => ?_
        exact hreads path ((findNamespace?_congr hfirst.paths other).trans hfind)

/-- What is reported of a datum that declares no namespace has nothing to do with the
store. -/
theorem exists_submit_eq_record {d : Datum} (h : declared? d = none) :
    ∃ r : Report, r.fault = none ∧ ∀ (t : FileTree) (s : Store), s.submit t d = .record s r := by
  cases d with
  | map entries =>
      simp only [submit, submitWith, h]
      exact ⟨_, rfl, fun _ _ => rfl⟩
  | _ => exact ⟨_, rfl, fun _ _ => rfl⟩

section

variable (hfiles : DeclaresNames t s.paths) (hissues : s.issues = [])

include hfiles hissues

theorem each_loadImport_again {names : List Text} (hns : (s.namespace? ns).isSome)
    (h : (Outcome.each (loadImport t (loadFileWithin t (depth + 1)) ns) names s).fault = none) :
    let s' := (Outcome.each (loadImport t (loadFileWithin t (depth + 1)) ns) names s).store
    let o := Outcome.each (loadImport t (loadFileWithin t (depth + 1)) ns) names s'.clear
    o.fault = none ∧ o.store = s' := by
  intro s' o
  obtain ⟨hgrows, hsettled, hadded⟩ :=
    each_loadImport_grows (loadFileWithin_settles hfiles (depth + 1)) rfl hns h
  have hreads := each_loadImport_reads hns h
  have hexhausted : ∀ name ∈ names, s'.clear.IsExhausted t name := by
    intro name hname
    rcases hsettled name hname with hstored | hunavailable
    · exact Or.inl hstored
    · refine (hreads name hname).imp id fun hread => ⟨hunavailable, fun path hfind => ?_⟩
      exact hread path ((findNamespace?_congr hgrows.paths.symm name).trans hfind)
  obtain ⟨hfault, hstore⟩ := each_loadImport_of_isExhausted (s := s'.clear) depth
    (hgrows.stored hns) hexhausted
  refine ⟨hfault, hstore.trans ?_⟩
  rw [hissues, List.nil_append] at hadded
  exact congrArg (fun issues => { s' with issues := issues }) hadded.symm

theorem loadImports_again {listed : Datum} (hns : (s.namespace? ns).isSome)
    (h : (loadImports t (loadFile t) ns listed s).fault = none) :
    let s' := (loadImports t (loadFile t) ns listed s).store
    let o := loadImports t (loadFile t) ns listed s'.clear
    o.fault = none ∧ o.store = s' := by
  have hclear : s.clear = s := by rw [clear, ← hissues]
  revert h
  unfold loadImports
  split
  · exact fun _ => ⟨rfl, hclear⟩
  split
  · refine fun _ => ⟨rfl, ?_⟩
    simp [Outcome.record, clear, hissues]
  · exact each_loadImport_again hfiles hissues hns

/-- Submitting a datum once more, to the store that the first submission leaves without
its issues, gives the same store with the same issues. -/
theorem submit_again {d : Datum} (h : (s.submit t d).fault = none) :
    ((s.submit t d).store.clear.submit t d).fault = none ∧
      ((s.submit t d).store.clear.submit t d).store = (s.submit t d).store := by
  cases hns : declared? d with
  | none =>
      obtain ⟨r, hfault, hrecord⟩ := exists_submit_eq_record hns
      rw [hrecord, hrecord]
      exact ⟨hfault, by simp [Outcome.record, clear, hissues]⟩
  | some ns =>
      obtain ⟨entries, rfl⟩ := exists_map_of_declared hns
      simp only [submit, submitWith, hns] at h ⊢
      rw [Outcome.andThen_fault_eq_none_iff] at h
      obtain ⟨hloaded, hchecked⟩ := h
      have hstored : ((s.put ns entries).namespace? ns).isSome :=
        isSome_namespace?_put.mpr (Or.inl rfl)
      have hgrows : Grows t (importNames entries) (s.put ns entries)
          (loadImports t (loadFile t) ns _ (s.put ns entries)).store :=
        (loadImports_grows (s := s.put ns entries) (loadFileWithin_settles hfiles t.loadDepth) rfl
          hstored hloaded).1
      obtain ⟨hfault, hstore⟩ :=
        loadImports_again (s := s.put ns entries) hfiles hissues hstored hloaded
      rw [Outcome.andThen_store hloaded]
      generalize (loadImports t (loadFile t) ns _ (s.put ns entries)).store = s' at *
      have hput : (Outcome.record s' (Report.all (entries.map fun e =>
          s'.checkEntry ns e.1 e.2))).store.clear.put ns entries = s'.clear :=
        put_of_namespace? hgrows.namespace?_put
      rw [hput, Outcome.andThen_fault hfault, Outcome.andThen_store hfault, hstore]
      exact ⟨hchecked, rfl⟩

end

end Store

namespace Lint

variable [Pattern.Engine] {t : FileTree} {exclude : List Text} {text : Text} {s : Store}

theorem run_again (sink sink' : Sink) (uri : Text) (hfiles : Store.DeclaresNames t s.paths)
    (hissues : s.issues = [])
    (h : ∀ tree, parse text = .ok tree → (s.submit t tree.toDatum).fault = none) :
    let first := run (Store.validator t) sink exclude text uri s
    let second := run (Store.validator t) sink' exclude text uri first.state
    second.findings = first.findings ∧ second.state = first.state := by
  intro first second
  by_cases hexcluded : isExcluded exclude uri
  · simp [first, second, run, hexcluded]
  cases hp : parse text with
  | error e => cases e <;> simp [first, second, run, hexcluded, cycle, hp]
  | ok tree =>
      cases hpath : Uri.path uri with
      | error fault =>
          simp [first, second, run, hexcluded, cycle, hp, consult, hpath, Store.validator,
            Store.clear]
      | ok path =>
          have hfault := h tree hp
          obtain ⟨hfault', hstore⟩ := Store.submit_again hfiles hissues hfault
          have hstate : first.state = (s.submit t tree.toDatum).store.clear := by
            simp [first, run, hexcluded, cycle, hp, consult, hpath, Store.validator, hfault]
          constructor
          · refine run_findings_congr hp ?_ ?_
            · rw [hstate, hstore]
            · rw [hstate, hfault', hfault]
          · simp only [second, run, hexcluded, cycle, hp, consult, hpath, Store.validator]
            rw [hstate, hfault', hstore]
            rfl

end Lint

namespace Linter

/-- Linting is idempotent. Where each file declares the name it is looked up by, a
second lint of a document that can be submitted has the findings of the first, and it
leaves the linter as the first has left it. -/
theorem lint_idempotent [Pattern.Engine] {t : FileTree} {l : Linter} {text : Text}
    (sink sink' : Sink) (uri : Text) (hfiles : Store.DeclaresNames t l.store.paths)
    (hissues : l.store.issues = [])
    (h : ∀ tree, parse text = .ok tree → (l.store.submit t tree.toDatum).fault = none) :
    let first := l.lint t sink text uri
    let second := first.1.lint t sink' text uri
    second.2.findings = first.2.findings ∧ second.1 = first.1 := by
  obtain ⟨hfindings, hstate⟩ := Lint.run_again sink sink' uri hfiles hissues h
  exact ⟨hfindings, congrArg (fun store => { l with store := store }) hstate⟩

/-- A document and the file that it imports import each other. The first lint loads the
file into a store that does not have it, and the second finds it there. -/
theorem lint_idempotent_cycle :
    let t : FileTree := ⟨⟨.single, ["ws"]⟩,
      [(["ws", "b.edn"], .file (Utf8.encode "{ns b import #{a}}"))], []⟩
    let l : Linter := fresh [⟨.relative, []⟩] []
    let text : Text := "{ns a import #{b} x 5}"
    let uri : Text := "file:///ws/a.edn"
    let first := l.lint t .absent text uri
    let second := first.1.lint t .working text uri
    first.2.findings.map (·.message) = [("Expected type of map, got integer" : Text)] ∧
      first.1.store.namespaces.map (·.1) = [("a" : Text), ("b" : Text)] ∧
      second.2.findings = first.2.findings ∧ second.1 = first.1 := by
  intro t l text uri first second
  have hreads : Store.Reads t ⟨.relative, ["b.edn"]⟩ (.map (Store.importing "b" ["a"])) :=
    ⟨"{ns b import #{a}}", by decide +kernel, by decide +kernel⟩
  have hplaces : ∀ place ∈ t.filePlaces, place = ["ws", "b.edn"] := by decide +kernel
  have hfiles : Store.DeclaresNames t l.store.paths := by
    intro name path entries ns hfind hreads' hns
    obtain ⟨hroot, hplace, hname⟩ := Store.place_of_findNamespace?_here hfind
    obtain ⟨root, names⟩ := path
    obtain rfl : root = .relative := hroot
    have hmem := Store.mem_filePlaces_of_reads hreads' hplace
    obtain rfl : names = ["b.edn"] := (List.cons.inj (hplaces _ hmem)).2
    cases hreads'.unique hreads
    exact (Option.some_inj.mp hns).symm.trans (hname "b" rfl).symm
  have hsubmit : ∀ tree, parse text = .ok tree → (l.store.submit t tree.toDatum).fault = none := by
    intro tree hp
    let entries := Store.importing "a" ["b"] ++ [(.symbol "x", .atom (.number (.int 5)))]
    have hread : readDatum text = .ok (.map entries) := by decide +kernel
    obtain ⟨tree', hp', hd⟩ := readDatum_eq_ok_iff.mp hread
    rw [Except.ok.inj (hp.symm.trans hp'), hd]
    decide +kernel
  exact ⟨by decide +kernel, by decide +kernel,
    lint_idempotent .absent .working uri hfiles rfl hsubmit⟩

end Linter

end EdnLint
