import EdnLint.Linter
import EdnLint.Proofs.Datum.Name
import EdnLint.Proofs.Document.Descent
import EdnLint.Proofs.Store.Issues
import EdnLint.Proofs.Text.Position

/-!
# From issues to findings

Between the store and the editor an issue passes a filter by namespace and is
located in the tree, and both can drop it. For the issues of a document's own
submission neither does. The resource of an issue is qualified by the namespace of
the document, so the filter keeps it, and the first step of its path is a key of
the document's map, so the tree is entered. The findings are then the issues one
by one, each at the start of the node its path leads to.
-/

namespace EdnLint

namespace Finding

theorem ofRange_start (lines : List Text) (message : Text) (severity : Severity) (line col : Nat)
    (endRow endCol : Option Int) :
    let f := ofRange lines message severity line col endRow endCol
    f.message = message ∧ f.severity = severity ∧ f.startLine = line - 1 ∧ f.startCol = col - 1 := by
  have hzero : ∀ n : Nat, zeroBased n = n - 1 := fun n => by simp [zeroBased]
  unfold ofRange
  dsimp only
  split <;> exact ⟨rfl, rfl, hzero line, hzero col⟩

end Finding

namespace Node

variable {Q : Position → Prop} {n : Node} {entries : List (Key × Datum)}

/-- The namespace that a form declares has a name. -/
theorem Form.declared_ne_nil (hn : n.Form Q) (hd : n.toDatum = .map entries) {ns : Text}
    (hns : Vocabulary.declared? (.map entries) = some ns) : ns ≠ [] := by
  obtain ⟨d, hlookup, hsymbol⟩ := Option.bind_eq_some_iff.mp hns
  have hmem := Key.mem_of_lookup?_symbol hlookup
  obtain ⟨child, -, hchild, hform⟩ := follow?_of_mem hn hd hmem rfl
  refine hform.symbol_ne_nil (Or.inl ?_)
  rw [hchild]
  unfold Datum.symbol? at hsymbol
  split at hsymbol
  · cases hsymbol
    rfl
  · cases hsymbol

/-- The definitions that a form says have names. -/
theorem Form.name_ne_nil (hn : n.Form Q) (hd : n.toDatum = .map entries) {name : Text} {d : Datum}
    (hmem : (Key.symbol name, d) ∈ entries) : name ≠ [] := by
  obtain ⟨m, hm, hkey⟩ := hn.exists_toKey hd hmem
  exact hm.symbol_ne_nil (Or.inr hkey)

end Node

namespace Lint

/-- The finding tells the issue, as a warning, at the start of the node that the
issue's path leads to. -/
structure Tells (tree : Node) (i : Issue) (f : Finding) : Prop where
  message : f.message = i.message
  severity : f.severity = .warning
  start : ∃ l, locate tree i = some l ∧
    l.node.start.line = f.startLine + 1 ∧ l.node.start.col = f.startCol + 1

section

variable {tree top : Node} {ns : Text} {entries : List (Key × Datum)}

/-- What is known of a document that declares the namespace `ns`: where its paths
start, which entries they start with, and that the names in it are names. -/
structure Declares (tree top : Node) (ns : Text) (entries : List (Key × Datum)) : Prop where
  topForm : tree.topForm? = some top
  form : top.Form Position.IsCounted
  datum : top.toDatum = .map entries
  namespace_ne_nil : ns ≠ []
  namespace_stroke : CodePoint.ofChar '/' ∉ ns
  name_ne_nil : ∀ name d, (Key.symbol name, d) ∈ entries → name ≠ []
  keys : ∀ e ∈ entries, e.1.isNaN = false

theorem Declares.resolve_isSome (h : Declares tree top ns entries) {k : Key} {d : Datum}
    (hk : (k, d) ∈ entries) (path : List Key) (unknownKey : Bool) :
    (tree.resolve (k :: path) unknownKey).isSome = true := by
  obtain ⟨child, hchild, -, -⟩ := Node.follow?_of_mem h.form h.datum hk (h.keys _ hk)
  exact Node.resolve_isSome h.topForm (by simp [hchild]) path unknownKey

/-- An issue of the document is kept and has a location. -/
theorem Declares.keeps (h : Declares tree top ns entries) {i : Issue}
    (hi : i.StandsIn ns entries) :
    belongs (some ns) i = true ∧ (locate tree i).isSome = true := by
  rcases hi with ⟨hresource, k, d, hk, hpath⟩ | ⟨name, d, hk, hresource⟩
  · refine ⟨by simp [belongs, hresource], ?_⟩
    simp only [locate, issuePath, hresource, hpath]
    exact h.resolve_isSome hk [] _
  · have hname := h.name_ne_nil name d hk
    have hqualifier := Name.qualifier?_qualify h.namespace_ne_nil h.namespace_stroke hname
    have hbase := Name.base_qualify h.namespace_ne_nil h.namespace_stroke hname
    refine ⟨by simp [belongs, hresource, hqualifier], ?_⟩
    simp only [locate, issuePath, hresource, hbase]
    exact h.resolve_isSome hk _ _

theorem Declares.finding (h : Declares tree top ns entries) {i : Issue}
    (hi : i.IsRecorded ns entries) (lines : List Text) :
    ∃ f, finding? tree lines i = some f ∧ Tells tree i f := by
  obtain ⟨l, hl⟩ := Option.isSome_iff_exists.mp (h.keeps hi.place).2
  have hplace : l.node.start.IsCounted := by
    have hwalk : tree.resolve (issuePath i) (isUnknownKey i) = some l := hl
    rw [Node.resolve, h.topForm] at hwalk
    exact (h.form.walk hwalk).start
  obtain ⟨hmessage, hseverity, hline, hcol⟩ := Finding.ofRange_start lines i.message .warning
    l.node.start.line l.node.start.col (some l.node.stop.line) (some l.node.stop.col)
  refine ⟨Finding.ofRange lines i.message .warning l.node.start.line l.node.start.col
    (some l.node.stop.line) (some l.node.stop.col), ?_, hmessage, hseverity, l, hl, ?_, ?_⟩
  · simp [finding?, Finding.locate?, hi.hints, Hints.none, hi.severity, hl, Severity.ofLevel]
  · rw [hline]
    exact (Nat.sub_add_cancel hplace.1).symm
  · rw [hcol]
    exact (Nat.sub_add_cancel hplace.2).symm

/-- A document that reads and declares a namespace without a stroke in its name. -/
theorem exists_declares {text : Text} (hp : parse text = .ok tree)
    (hd : tree.toDatum = .map entries) (hns : Vocabulary.declared? tree.toDatum = some ns)
    (hstroke : CodePoint.ofChar '/' ∉ ns) (hkeys : ∀ e ∈ entries, e.1.isNaN = false) :
    ∃ top, Declares tree top ns entries := by
  obtain ⟨top, htop, hform, hdatum⟩ :=
    parse_topForm (fun s _ => Position.first_after_isCounted s) hp (forms_ne_nil_of_parse hp hd)
  have hmap : top.toDatum = .map entries := hdatum.symm.trans hd
  exact ⟨top, htop, hform, hmap, hform.declared_ne_nil hmap (hd ▸ hns), hstroke,
    fun _ _ hmem => hform.name_ne_nil hmap hmem, hkeys⟩

end

theorem forall₂_findings {R : Issue → Finding → Prop} {tree : Node} {lines : List Text}
    {ns : Option Text} {issues : List Issue} (hkept : ∀ i ∈ issues, belongs ns i = true)
    (hfound : ∀ i ∈ issues, ∃ f, finding? tree lines i = some f ∧ R i f) :
    List.Forall₂ R issues (findings tree lines ns issues).1 := by
  induction issues with
  | nil => exact .nil
  | cons i issues ih =>
      rw [List.forall_mem_cons] at hkept hfound
      obtain ⟨⟨f, hf, hR⟩, hfound⟩ := hfound
      have hhead : (findings tree lines ns (i :: issues)).1 =
          f :: (findings tree lines ns issues).1 := by
        simp [findings, hkept.1, hf]
      rw [hhead]
      exact .cons hR (ih hkept.2 hfound)

/-- The findings of a cycle that reads the document and is not stopped are those of
the issues its submission leaves. -/
theorem run_findings [Pattern.Engine] {t : FileTree} {sink : Sink} {exclude : List Text}
    {text uri path : Text} {tree : Node} {s : Store} (hexcluded : isExcluded exclude uri = false)
    (huri : Uri.path uri = .ok path) (hp : parse text = .ok tree)
    (hfault : (s.submit t tree.toDatum).fault = none) :
    (run (Store.validator t) sink exclude text uri s).findings =
      (findings tree (Text.lines text) (Vocabulary.declared? tree.toDatum)
        (s.submit t tree.toDatum).store.issues).1 := by
  simp [run, hexcluded, cycle, hp, consult, huri, Store.validator, hfault]

end Lint

/-- No issue of a document is lost on the way to the editor. The findings of a
document that declares a namespace without a stroke, and has no key that is not a
number, are the issues its submission recorded, one by one and in order. -/
theorem Linter.lint_tells_issues [Pattern.Engine] {t : FileTree} {sink : Sink}
    {text uri path ns : Text} {l : Linter} {tree : Node} {entries : List (Key × Datum)}
    (hissues : l.store.issues = []) (hexcluded : Lint.isExcluded l.exclude uri = false)
    (huri : Uri.path uri = .ok path) (hp : parse text = .ok tree)
    (hd : tree.toDatum = .map entries) (hns : Vocabulary.declared? tree.toDatum = some ns)
    (hstroke : CodePoint.ofChar '/' ∉ ns) (hkeys : ∀ e ∈ entries, e.1.isNaN = false)
    (hfault : (l.store.submit t tree.toDatum).fault = none) :
    let issues := (l.store.submit t tree.toDatum).store.issues
    List.Forall₂ (Lint.Tells tree) issues (l.lint t sink text uri).2.findings ∧
      ∀ i ∈ issues, Lint.belongs (some ns) i = true ∧ (Lint.locate tree i).isSome = true := by
  intro issues
  obtain ⟨top, hdeclares⟩ := Lint.exists_declares hp hd hns hstroke hkeys
  have hrecorded : ∀ i ∈ issues, i.IsRecorded ns entries := by
    obtain ⟨added, hadded, hrecorded⟩ : Store.Adds (Issue.IsRecorded ns entries) l.store
        (l.store.submit t tree.toDatum).store := by
      rw [hd] at hns hfault ⊢
      exact Store.submitWith_adds t _ hns hfault
    rw [hissues, List.nil_append] at hadded
    exact fun i hi => hrecorded i (hadded ▸ hi)
  have hkept : ∀ i ∈ issues, Lint.belongs (some ns) i = true ∧ (Lint.locate tree i).isSome = true :=
    fun i hi => hdeclares.keeps (hrecorded i hi).place
  refine ⟨?_, hkept⟩
  have hfindings : (l.lint t sink text uri).2.findings =
      (Lint.findings tree (Text.lines text) (some ns) issues).1 := by
    rw [← hns]
    exact Lint.run_findings hexcluded huri hp hfault
  rw [hfindings]
  exact Lint.forall₂_findings (fun i hi => (hkept i hi).1)
    fun i hi => hdeclares.finding (hrecorded i hi) _

/-- Three issues, of an import, of a key and of a definition, are three findings. -/
theorem Linter.lint_tells_issues_three :
    let text : Text := "{ns a import #{b} 1 2 c 3}"
    let l : Linter := .fresh [] []
    let t : FileTree := ⟨⟨.single, []⟩, [], []⟩
    ∃ tree, parse text = .ok tree ∧ (l.store.submit t tree.toDatum).store.issues.length = 3 ∧
      List.Forall₂ (Lint.Tells tree) (l.store.submit t tree.toDatum).store.issues
        (l.lint t .absent text "file:///a.edn").2.findings := by
  intro text l t
  let entries : List (Key × Datum) :=
    [(.symbol "ns", .atom (.symbol "a")), (.symbol "import", .set [.symbol "b"]),
      (.index 1, .atom (.number (.int 2))), (.symbol "c", .atom (.number (.int 3)))]
  have hread : readDatum text = .ok (.map entries) := by decide +kernel
  obtain ⟨tree, hp, hd⟩ := readDatum_eq_ok_iff.mp hread
  have hns : Vocabulary.declared? tree.toDatum = some ("a" : Text) := by
    rw [hd]
    decide +kernel
  have huri : Uri.path "file:///a.edn" = .ok ("/a.edn" : Text) := by decide +kernel
  have hfault : (l.store.submit t tree.toDatum).fault = none := by
    rw [hd]
    decide +kernel
  refine ⟨tree, hp, ?_, (lint_tells_issues rfl (by decide +kernel) huri hp hd hns (by decide)
    (by decide) hfault).1⟩
  rw [hd]
  decide +kernel

end EdnLint
