import EdnLint.Proofs.Lint.Findings
import EdnLint.Proofs.Lint.Ranges

/-!
# Documents that declare no namespace

The store has one issue for a document that declares no namespace. If the document is not
a map, the issue stands at the top of it, and if it is, at the entry `ns`. A map that has
the entry, but no symbol in it, is shown at the entry. In a map without the entry the path
fails at its first step, which is the one case where a path has no location at all, and
the only issue of the document is lost.
-/

namespace EdnLint

open Vocabulary

/-- The issue of a datum that declares no namespace. -/
def Issue.undeclared (d : Datum) : Issue where
  message := match d with
    | .map _ => "Expected symbol for 'ns"
    | d => ("Expected namespace to be a map, got " : Text) ++ d.typeName
  path := match d with
    | .map _ => [ns]
    | _ => []
  resource := none
  hints := .none
  severity := none

/-- The datum is a map without the entry that names a namespace. -/
def Datum.IsNameless (d : Datum) : Prop :=
  ∃ entries, d = .map entries ∧ Key.lookup? ns entries = none

theorem Store.submit_of_undeclared [Pattern.Engine] (t : FileTree) (s : Store) {d : Datum}
    (h : declared? d = none) : s.submit t d = .record s ⟨[Issue.undeclared d], none⟩ := by
  cases d with
  | map entries =>
      simp only [submit, submitWith, h]
      rfl
  | _ => rfl

namespace Lint

variable {tree top : Node}

theorem isUnknownKey_undeclared_map (entries : List (Key × Datum)) :
    isUnknownKey (.undeclared (.map entries)) = false := by
  have hmark : Text.hasInfix unknownKeyMark "Expected symbol for 'ns" = false := by decide +kernel
  exact hmark

/-- The issue of a map without a name has no location. -/
theorem locate_undeclared_eq_none {Q : Position → Prop} (htop : tree.topForm? = some top)
    (hform : top.Form Q) (hdatum : tree.toDatum = top.toDatum) (h : tree.toDatum.IsNameless) :
    locate tree (.undeclared tree.toDatum) = none := by
  rcases h with ⟨entries, hmap, hmissing⟩
  have hstep : top.follow? ns = none := Node.follow?_eq_none hform (hdatum.symm.trans hmap) hmissing
  rw [hmap, locate, isUnknownKey_undeclared_map, Node.resolve, htop]
  simp [Issue.undeclared, issuePath, Node.walk_cons, hstep]

/-- The issue of any other document that declares no namespace is located exactly. -/
theorem exists_locate_undeclared {Q : Position → Prop} (htop : tree.topForm? = some top)
    (hform : top.Form Q) (hdatum : tree.toDatum = top.toDatum)
    (h : ¬ tree.toDatum.IsNameless) :
    ∃ n, locate tree (.undeclared tree.toDatum) =
      some ⟨n, true, issuePath (.undeclared tree.toDatum)⟩ := by
  cases hd : tree.toDatum with
  | map entries =>
      have hpresent : Key.lookup? ns entries ≠ none := fun hmissing => h ⟨entries, hd, hmissing⟩
      rcases Option.ne_none_iff_exists'.mp hpresent with ⟨d, hlookup⟩
      have hmem := Key.mem_of_lookup?_symbol hlookup
      rcases Node.follow?_of_mem hform (hdatum.symm.trans hd) hmem rfl with ⟨n, hn, -, -⟩
      have hstep : top.follow? ns = some n := hn
      rw [locate, isUnknownKey_undeclared_map, Node.resolve, htop]
      exact ⟨n, by simp [Issue.undeclared, issuePath, Node.walk_cons, hstep]⟩
  | _ =>
      -- with an empty path there is no last step that could be left out
      rw [locate, Node.resolve, htop]
      exact ⟨top, by simp [Issue.undeclared, issuePath]⟩

/-- The issue names no definition, so it is kept for every document. -/
theorem findings_undeclared (tree : Node) (lines : List Text) (name : Option Text) (d : Datum) :
    (findings tree lines name [.undeclared d]).1 =
      (finding? tree lines (.undeclared d)).toList := by
  simp [findings, belongs, Issue.undeclared]

theorem finding?_undeclared_eq_none_iff (tree : Node) (lines : List Text) (d : Datum) :
    finding? tree lines (.undeclared d) = none ↔ locate tree (.undeclared d) = none := by
  rw [finding?]
  exact Option.map_eq_none_iff

end Lint

/-- A document that declares no namespace has one issue, and if it is a map without the
entry `ns`, the issue is lost. Otherwise the issue is the one finding of the document, and
shows the node that the path of the issue leads to. -/
theorem Linter.lint_of_not_declared [Pattern.Engine] {t : FileTree} {sink : Sink}
    {text uri path : Text} {l : Linter} {tree : Node} (hissues : l.store.issues = [])
    (hexcluded : Lint.isExcluded l.exclude uri = false) (huri : Uri.path uri = .ok path)
    (hp : parse text = .ok tree) (hforms : tree.forms ≠ [])
    (hns : declared? tree.toDatum = none) :
    let issue := Issue.undeclared tree.toDatum
    let found := (l.lint t sink text uri).2.findings
    (l.store.submit t tree.toDatum).fault = none ∧
      (l.store.submit t tree.toDatum).store.issues = [issue] ∧
      (found = [] ↔ tree.toDatum.IsNameless) ∧
      (¬ tree.toDatum.IsNameless → ∃ f n, found = [f] ∧
        f.message = issue.message ∧ f.severity = .warning ∧ f.Shows text n ∧
        Lint.locate tree issue = some ⟨n, true, Lint.issuePath issue⟩) := by
  intro issue found
  have hsubmit : l.store.submit t tree.toDatum = .record l.store ⟨[issue], none⟩ :=
    Store.submit_of_undeclared t l.store hns
  have hrecorded : (l.store.submit t tree.toDatum).store.issues = [issue] := by
    rw [hsubmit, Outcome.record, hissues]
    rfl
  have hfault : (l.store.submit t tree.toDatum).fault = none := by
    rw [hsubmit]
    rfl
  have hfound : found = (Lint.finding? tree (Text.lines text) issue).toList := by
    have hrun : found = _ := Lint.run_findings hexcluded huri hp hfault
    rw [hrun, hrecorded]
    exact Lint.findings_undeclared tree (Text.lines text) _ tree.toDatum
  rcases parse_topForm (Q := fun _ => True) (fun _ _ => trivial) hp hforms with
    ⟨top, htop, hform, hdatum⟩
  refine ⟨hfault, hrecorded, ?_, ?_⟩
  · rw [hfound, Option.toList_eq_nil_iff, Lint.finding?_undeclared_eq_none_iff]
    constructor
    · intro hnone
      by_contra hnamed
      rcases Lint.exists_locate_undeclared htop hform hdatum hnamed with ⟨n, hn⟩
      rw [hnone] at hn
      cases hn
    · exact Lint.locate_undeclared_eq_none htop hform hdatum
  · intro hnamed
    rcases Lint.exists_locate_undeclared htop hform hdatum hnamed with ⟨n, hn⟩
    rcases Finding.locate?_resolve hp hn issue.message .warning with
      ⟨f, hf, hmessage, hseverity, hshows, -⟩
    refine ⟨f, n, ?_, hmessage, hseverity, hshows, hn⟩
    have hfinding : Lint.finding? tree (Text.lines text) issue = some f := by
      rw [Lint.finding?, hn]
      exact hf
    rw [hfound, hfinding]
    rfl

/-- A document whose `ns` is a list is shown at the list. -/
theorem Linter.lint_of_not_declared_list :
    let text : Text := "\x7bns\n (5)\x7d"
    let l : Linter := .fresh [] []
    let t : FileTree := ⟨⟨.single, []⟩, [], []⟩
    ∃ tree, parse text = .ok tree ∧ declared? tree.toDatum = none ∧
      ∃ f n, (l.lint t .absent text "file:///a.edn").2.findings = [f] ∧ f.Shows text n ∧
        Lint.locate tree (.undeclared tree.toDatum) = some ⟨n, true, [ns]⟩ := by
  intro text l t
  let entries : List (Key × Datum) :=
    [(.symbol "ns", .vector [.atom (.number (.int 5))])]
  have hread : readDatum text = .ok (.map entries) := by decide +kernel
  rcases readDatum_eq_ok_iff.mp hread with ⟨tree, hp, hd⟩
  have hns : declared? tree.toDatum = none := by
    rw [hd]
    decide +kernel
  have huri : Uri.path "file:///a.edn" = .ok ("/a.edn" : Text) := by decide +kernel
  have hnamed : ¬ tree.toDatum.IsNameless := by
    rw [hd]
    rintro ⟨entries', hentries, hmissing⟩
    cases hentries
    cases hmissing
  have hlint := @lint_of_not_declared _ t .absent text "file:///a.edn" "/a.edn" l tree rfl
    (by decide +kernel) huri hp (forms_ne_nil_of_parse hp hd) hns
  rcases hlint.2.2.2 hnamed with ⟨f, n, hf, -, -, hshows, hn⟩
  refine ⟨tree, hp, hns, f, n, hf, hshows, ?_⟩
  rw [hn, hd]
  rfl

/-- The issue of a document without a name is recorded, and the document has no finding. -/
theorem Linter.lint_nameless_silent :
    let text : Text := "\x7ba 1\x7d"
    let l : Linter := .fresh [] []
    let t : FileTree := ⟨⟨.single, []⟩, [], []⟩
    ∃ d, readDatum text = .ok d ∧ d ≠ .nil ∧ declared? d = none ∧
      (l.store.submit t d).store.issues.map Issue.message = ["Expected symbol for 'ns"] ∧
      (l.lint t .absent text "file:///a.edn").2.findings = [] := by
  let entries : List (Key × Datum) := [(.symbol "a", .atom (.number (.int 1)))]
  refine ⟨.map entries, by decide +kernel, by simp [Datum.nil], by decide +kernel, ?_, ?_⟩
  · decide +kernel
  · decide +kernel

end EdnLint
