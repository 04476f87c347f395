import EdnLint.Proofs.Document.Descent
import EdnLint.Proofs.Lint.Leftover
import EdnLint.Proofs.Store.Stopping

/-!
# What the findings of a document depend on

A store outlives the lints that use it, so it holds much that has nothing to do with the
document at hand: other namespaces, and an older version of the document's own. Where
the imports of the document are stored, a lint reads the namespaces at one place, the
lookup of a tag, and by then it has put its own namespace in place of the older version.
So its findings depend on the namespaces that its tags refer to and on no others
(`Store.Refers`). It also leaves all namespaces but its own as they are, and hence
lints that come before it do not matter as long as they load nothing and their
namespaces are not referred to.

A lint that does load an import leaves it in the store. A later document may then refer
to it without importing it, which is why lints that load are left out.
-/

namespace EdnLint

open Vocabulary

namespace Store

variable {s s' : Store} {t t' : FileTree} {ns name : Text} {entries : List (Key × Datum)}

/-- A tag of a definition is qualified by the name. -/
def Refers (entries : List (Key × Datum)) (other : Text) : Prop :=
  ∃ name body names tag, (Key.symbol name, Datum.map body) ∈ entries ∧
    Key.symbol name ≠ Vocabulary.ns ∧ Key.symbol name ≠ imports ∧
    symbolNames? (Datum.field body tags) = some names ∧ tag ∈ names ∧
    Name.qualifier? tag = some other

/-- Two stores agree on the namespaces, besides `ns`, that are referred to. -/
def Agree (ns : Text) (entries : List (Key × Datum)) (s s' : Store) : Prop :=
  ∀ other, Refers entries other → other ≠ ns → s.namespace? other = s'.namespace? other

theorem definition?_put_congr {tag : Text}
    (h : ∀ other, Name.qualifier? tag = some other → other ≠ ns →
      s.namespace? other = s'.namespace? other) :
    (s.put ns entries).definition? ns tag = (s'.put ns entries).definition? ns tag := by
  have hsame : (s.put ns entries).namespace? ((Name.qualifier? tag).getD ns) =
      (s'.put ns entries).namespace? ((Name.qualifier? tag).getD ns) := by
    by_cases heq : (Name.qualifier? tag).getD ns = ns
    · rw [heq]
      simp [namespace?, put]
    · cases hq : Name.qualifier? tag with
      | none => simp [hq] at heq
      | some other =>
          rw [hq, Option.getD_some] at heq
          simpa [namespace?, put, Members.get?_put_of_ne heq] using h other hq heq
  unfold definition?
  rw [hsame]

variable [Pattern.Engine]

/-- The check of an entry looks up what its tags refer to, and nothing else. -/
theorem checkEntry_put_congr (h : Agree ns entries s s') {k : Key} {d : Datum}
    (hmem : (k, d) ∈ entries) :
    (s.put ns entries).checkEntry ns k d = (s'.put ns entries).checkEntry ns k d := by
  unfold checkEntry
  split
  · rfl
  rename_i hdefinition
  cases hk : k.symbol? with
  | none => rfl
  | some name =>
      obtain rfl := Key.eq_symbol_of_symbol? hk
      have hns : Key.symbol name ≠ Vocabulary.ns := fun e => hdefinition (by simp [e])
      have himports : Key.symbol name ≠ imports := fun e => hdefinition (by simp [e])
      have hbody : (s.put ns entries).checkBody ns d = (s'.put ns entries).checkBody ns d := by
        unfold checkBody
        split
        · rename_i body
          dsimp only
          split
          · rfl
          cases hnames : symbolNames? (Datum.field body tags) with
          | none => rfl
          | some names =>
              have htag : ∀ tag ∈ names, (s.put ns entries).checkTag ns body tag =
                  (s'.put ns entries).checkTag ns body tag := by
                intro tag htag
                unfold checkTag
                rw [definition?_put_congr fun other hq hne =>
                  h other ⟨name, body, names, tag, hmem, hns, himports, hnames, htag, hq⟩ hne]
              dsimp only
              rw [List.map_congr_left htag]
        · rfl
      dsimp only
      rw [hbody]

theorem submit_congr (hns : declared? (.map entries) = some ns) (hissues : s.issues = s'.issues)
    (himports : s.ImportsStored (.map entries)) (himports' : s'.ImportsStored (.map entries))
    (h : Agree ns entries s s') :
    (s.submit t (.map entries)).store.issues = (s'.submit t' (.map entries)).store.issues ∧
      (s.submit t (.map entries)).fault = (s'.submit t' (.map entries)).fault := by
  obtain ⟨added, hsubmit⟩ := exists_submit_eq entries
  have hreports : (entries.map fun e => (s.put ns entries).checkEntry ns e.1 e.2) =
      entries.map fun e => (s'.put ns entries).checkEntry ns e.1 e.2 :=
    List.map_congr_left fun _ he => checkEntry_put_congr h he
  rw [hsubmit t s ns himports hns, hsubmit t' s' ns himports' hns, hreports]
  simp [Outcome.record, hissues]

/-- A submission that loads nothing changes no namespace but its own. -/
theorem submit_namespace? {d : Datum} (h : s.ImportsStored d) (hname : declared? d ≠ some name) :
    (s.submit t d).store.namespace? name = s.namespace? name := by
  cases hns : declared? d with
  | none =>
      obtain ⟨r, hrecord, -⟩ : ∃ r, s.submit t d = .record s r ∧ r.fault = none :=
        submitWith_of_not_declared hns
      rw [hrecord, namespace?_record]
  | some ns =>
      obtain ⟨entries, rfl⟩ := exists_map_of_declared hns
      obtain ⟨added, hsubmit⟩ := submit_of_importsStored (t := t) h hns
      have hne : name ≠ ns := fun e => hname (e ▸ hns)
      rw [hsubmit]
      exact Members.get?_put_of_ne hne entries s.namespaces

theorem submit_isSome {d : Datum} (h : s.ImportsStored d) (hname : (s.namespace? name).isSome) :
    ((s.submit t d).store.namespace? name).isSome := by
  by_cases hns : declared? d = some name
  · obtain ⟨entries, rfl⟩ := exists_map_of_declared hns
    obtain ⟨added, hsubmit⟩ := submit_of_importsStored (t := t) h hns
    rw [hsubmit]
    exact isSome_namespace?_put.mpr (Or.inl rfl)
  · rw [submit_namespace? h hns]
    exact hname

end Store

namespace Lint

variable [Pattern.Engine] {t t' : FileTree} {sink sink' : Sink} {exclude : List Text}
  {text uri : Text} {s s' : Store}

theorem run_findings_congr {tree : Node} (hp : parse text = .ok tree)
    (hissues : (s.submit t tree.toDatum).store.issues = (s'.submit t' tree.toDatum).store.issues)
    (hfault : (s.submit t tree.toDatum).fault = (s'.submit t' tree.toDatum).fault) :
    (run (Store.validator t) sink exclude text uri s).findings =
      (run (Store.validator t') sink' exclude text uri s').findings := by
  unfold run
  split
  · rfl
  simp only [cycle, hp, consult]
  cases Uri.path uri with
  | error fault => rfl
  | ok path =>
      simp only [Store.validator, hfault]
      cases (s'.submit t' tree.toDatum).fault with
      | none =>
          exact congrArg (fun issues =>
            (findings tree (Text.lines text) (declared? tree.toDatum) issues).1) hissues
      | some fault => rfl

/-- The store behind a lint is the one before it or that of the submission, without
issues. -/
theorem run_store (t : FileTree) (sink : Sink) (exclude : List Text) (text uri : Text) (s : Store) :
    (∀ name, (run (Store.validator t) sink exclude text uri s).state.namespace? name =
      s.namespace? name) ∨
    ∃ tree, parse text = .ok tree ∧
      ∀ name, (run (Store.validator t) sink exclude text uri s).state.namespace? name =
        (s.submit t tree.toDatum).store.namespace? name := by
  unfold run
  split
  · exact Or.inl fun _ => rfl
  unfold cycle
  dsimp only
  split
  · exact Or.inl fun _ => rfl
  · exact Or.inl fun _ => rfl
  · rename_i tree hp
    unfold consult
    cases Uri.path uri with
    | error fault => exact Or.inl fun _ => rfl
    | ok path =>
        refine Or.inr ⟨tree, hp, fun name => ?_⟩
        simp only [Store.validator]
        cases (s.submit t tree.toDatum).fault with
        | none => rfl
        | some fault => rfl

end Lint

namespace Linter

open Store

variable {t t' : FileTree} {sink sink' : Sink} {l l' : Linter} {text uri ns : Text}
  {entries : List (Key × Datum)}

section

variable [Pattern.Engine]

/-- A lint whose imports are stored changes no namespace but that of the document, and
forgets none. -/
theorem lint_namespace? (t : FileTree) (sink : Sink) (uri : Text)
    (h : ∀ tree, parse text = .ok tree → l.store.ImportsStored tree.toDatum) (name : Text) :
    ((∀ tree, parse text = .ok tree → declared? tree.toDatum ≠ some name) →
      (l.lint t sink text uri).1.store.namespace? name = l.store.namespace? name) ∧
    ((l.store.namespace? name).isSome →
      ((l.lint t sink text uri).1.store.namespace? name).isSome) := by
  rcases Lint.run_store t sink l.exclude text uri l.store with hstore | ⟨tree, hp, hstore⟩
  · exact ⟨fun _ => hstore name, fun hname => (hstore name).symm ▸ hname⟩
  · refine ⟨fun hne => ?_, fun hname => ?_⟩
    · exact (hstore name).trans (submit_namespace? (h tree hp) (hne tree hp))
    · exact (hstore name).symm ▸ submit_isSome (h tree hp) hname

theorem lint_findings_congr {tree : Node} (hp : parse text = .ok tree)
    (hd : tree.toDatum = .map entries) (hns : declared? tree.toDatum = some ns)
    (hissues : l.store.issues = []) (hissues' : l'.store.issues = [])
    (hexclude : l.exclude = l'.exclude) (himports : l.store.ImportsStored tree.toDatum)
    (himports' : l'.store.ImportsStored tree.toDatum) (hagree : Agree ns entries l.store l'.store) :
    (l.lint t sink text uri).2.findings = (l'.lint t' sink' text uri).2.findings := by
  unfold lint
  rw [hexclude]
  rw [hd] at hns himports himports'
  obtain ⟨hsame, hfault⟩ :=
    submit_congr hns (hissues.trans hissues'.symm) himports himports' hagree
  exact Lint.run_findings_congr hp (hd ▸ hsame) (hd ▸ hfault)

/-- The operations are lints of documents whose imports are stored by then. Each declares
the namespace `ns` or one that the entries do not refer to. -/
def AreUnrelated (t : FileTree) (sink : Sink) (l : Linter) (ns : Text)
    (entries : List (Key × Datum)) (operations : List Operation) : Prop :=
  ∀ before operation, before ++ [operation] <+: operations →
    ∃ text uri, operation = .lint text uri ∧ ∀ tree, parse text = .ok tree →
      (run t sink l before).store.ImportsStored tree.toDatum ∧
        ∀ other, declared? tree.toDatum = some other → other = ns ∨ ¬ Refers entries other

theorem areUnrelated_lint (uri : Text) (h : ∀ tree, parse text = .ok tree →
      l.store.ImportsStored tree.toDatum ∧
        ∀ other, declared? tree.toDatum = some other → other = ns ∨ ¬ Refers entries other) :
    AreUnrelated t sink l ns entries [.lint text uri] := by
  intro before operation hbefore
  obtain rfl : before = [] := by simpa using hbefore.length_le
  obtain rfl : operation = .lint text uri := by simpa using hbefore
  exact ⟨text, uri, rfl, h⟩

/-- What such operations leave as it was. -/
structure Kept (ns : Text) (entries : List (Key × Datum)) (l l' : Linter) : Prop where
  issues : l'.store.issues = []
  exclude : l.exclude = l'.exclude
  stored : ∀ name, (l.store.namespace? name).isSome → (l'.store.namespace? name).isSome
  agree : Agree ns entries l.store l'.store

theorem kept_run (hissues : l.store.issues = []) {operations : List Operation}
    (h : AreUnrelated t sink l ns entries operations) :
    Kept ns entries l (run t sink l operations) := by
  induction operations using List.reverseRecOn with
  | nil => exact ⟨hissues, rfl, fun _ h => h, fun _ _ _ => rfl⟩
  | append_singleton operations operation ih =>
      have hkept := ih fun before operation hbefore =>
        h before operation (hbefore.trans (List.prefix_append _ _))
      obtain ⟨text, uri, rfl, hdocument⟩ := h operations operation (List.prefix_refl _)
      rw [run_concat]
      have hnames := lint_namespace? t sink uri fun tree hp => (hdocument tree hp).1
      refine ⟨lint_issues hkept.issues text uri, hkept.exclude, ?_, ?_⟩
      · exact fun name hname => (hnames name).2 (hkept.stored name hname)
      · intro other hrefers hne
        refine (hkept.agree other hrefers hne).trans ((hnames other).1 ?_).symm
        intro tree hp hother
        rcases (hdocument tree hp).2 other hother with heq | hnot
        · exact hne heq
        · exact hnot hrefers

omit [Pattern.Engine] in
theorem Kept.importsStored (h : Kept ns entries l l') {d : Datum}
    (himports : l.store.ImportsStored d) : l'.store.ImportsStored d :=
  fun ns entries hd hns name hname =>
    (himports ns entries hd hns name hname).imp_right (h.stored name)

/-- The findings of a document depend only on what it refers to. Let two linters hold the
imports of a document and agree on the namespaces that its tags refer to, its own apart.
Then it has the same findings with both, and no namespace but its own is changed. In
particular lints that come before it do not matter if they load nothing and are of its
own namespace or of one that it does not refer to. -/
theorem lint_findings_independent (t t' : FileTree) (sink sink' : Sink) (uri : Text)
    {tree : Node} (hp : parse text = .ok tree)
    (hd : tree.toDatum = .map entries) (hns : declared? tree.toDatum = some ns)
    (hissues : l.store.issues = []) (hissues' : l'.store.issues = [])
    (hexclude : l.exclude = l'.exclude) (himports : l.store.ImportsStored tree.toDatum)
    (himports' : l'.store.ImportsStored tree.toDatum) (hagree : Agree ns entries l.store l'.store) :
    (l.lint t sink text uri).2.findings = (l'.lint t' sink' text uri).2.findings ∧
      (∀ name, name ≠ ns →
        (l.lint t sink text uri).1.store.namespace? name = l.store.namespace? name ∧
          (l'.lint t' sink' text uri).1.store.namespace? name = l'.store.namespace? name) ∧
      ∀ operations, AreUnrelated t sink l ns entries operations →
        ((run t sink l operations).lint t sink text uri).2.findings =
          (l.lint t sink text uri).2.findings := by
  refine ⟨?_, fun name hne => ?_, fun operations hunrelated => ?_⟩
  · exact lint_findings_congr hp hd hns hissues hissues' hexclude himports himports' hagree
  · have hone : ∀ tree', parse text = .ok tree' → tree' = tree :=
      fun tree' hp' => Except.ok.inj (hp'.symm.trans hp)
    have hother : ∀ tree', parse text = .ok tree' → declared? tree'.toDatum ≠ some name := by
      intro tree' hp' hname
      rw [hone tree' hp', hns] at hname
      exact hne (Option.some_inj.mp hname).symm
    constructor
    · exact (lint_namespace? t sink uri (fun _ hp' => hone _ hp' ▸ himports) name).1 hother
    · exact (lint_namespace? t' sink' uri (fun _ hp' => hone _ hp' ▸ himports') name).1 hother
  · have hkept := kept_run hissues hunrelated
    exact (lint_findings_congr hp hd hns hissues hkept.issues hkept.exclude himports
      (hkept.importsStored himports) hkept.agree).symm

end

/-- A document that is tagged with a schema of another namespace. The second store holds
a version of the document's namespace, a namespace that is not referred to and another
directory besides; the last run has linted an older version before. -/
theorem lint_findings_independent_older :
    let text : Text := "{ns a import #{b} d {:zen/tags #{b/x} :k 1}}"
    let uri : Text := "file:///ws/a.edn"
    let t : FileTree := ⟨⟨.single, ["ws"]⟩, [], []⟩
    let l := ((fresh [] []).lint t .absent "{ns b x {:zen/tags #{zen/schema} :type zen/map}}" uri).1
    let l' : Linter := ⟨{ (l.store.put "a" []).put "z" [] with paths := [⟨.relative, ["z"]⟩] }, []⟩
    let older : List Operation := [.lint "{ns a d 5}" uri]
    (l.lint t .absent text uri).2.findings.map (·.message) = [("unknown key :k" : Text)] ∧
      (l.lint t .absent text uri).2.findings = (l'.lint t .working text uri).2.findings ∧
      ((run t .absent l older).lint t .absent text uri).2.findings =
        (l.lint t .absent text uri).2.findings := by
  intro text uri t l l' older
  let body : List (Key × Datum) :=
    [(.keyword tags, .set [.symbol "b/x"]), (.keyword "k", .atom (.number (.int 1)))]
  let entries : List (Key × Datum) := [(Vocabulary.ns, .atom (.symbol "a")),
    (imports, .set [.symbol "b"]), (.symbol "d", .map body)]
  have hread : readDatum text = .ok (.map entries) := by decide +kernel
  obtain ⟨tree, hp, hd⟩ := readDatum_eq_ok_iff.mp hread
  have hns : declared? tree.toDatum = some ("a" : Text) := by
    rw [hd]
    decide +kernel
  have himports : ∀ s : Store, (s.namespace? "b").isSome → s.ImportsStored tree.toDatum := by
    intro s hs
    rw [hd]
    rintro ns _ ⟨⟩ - name hname
    have hnames : importNames entries = [("b" : Text)] := by decide +kernel
    rw [hnames, List.mem_singleton] at hname
    exact Or.inr (hname ▸ hs)
  have hrefers : ∀ other, Refers entries other → other = "b" := by
    rintro other ⟨name, stored, names, tag, hmem, -, -, htags, htag, hq⟩
    obtain ⟨-, rfl⟩ : name = "d" ∧ stored = body := by
      simpa [entries, Key.symbol, Vocabulary.ns, imports] using hmem
    have hbody : symbolNames? (Datum.field body tags) = some [("b/x" : Text)] := by decide +kernel
    obtain rfl : names = [("b/x" : Text)] := Option.some_inj.mp (htags.symm.trans hbody)
    obtain rfl := List.mem_singleton.mp htag
    have hb : Name.qualifier? "b/x" = some ("b" : Text) := by decide +kernel
    exact Option.some_inj.mp (hq.symm.trans hb)
  -- About any store, as the one at hand is too large to be compared by evaluation.
  have hput : ∀ (s : Store) (paths : List Path),
      { (s.put "a" []).put "z" [] with paths := paths }.namespace? "b" = s.namespace? "b" := by
    intro s paths
    have ha : ("b" : Text) ≠ "a" := by decide
    have hz : ("b" : Text) ≠ "z" := by decide
    exact (Members.get?_put_of_ne hz _ _).trans (Members.get?_put_of_ne ha _ _)
  have hsame : l'.store.namespace? "b" = l.store.namespace? "b" := hput l.store _
  have hagree : Agree "a" entries l.store l'.store := by
    intro other hother _
    obtain rfl := hrefers other hother
    exact hsame.symm
  have holder : AreUnrelated t .absent l "a" entries older := by
    refine areUnrelated_lint uri fun tree hp => ?_
    let entries' : List (Key × Datum) :=
      [(Vocabulary.ns, .atom (.symbol "a")), (.symbol "d", .atom (.number (.int 5)))]
    have hread : readDatum "{ns a d 5}" = .ok (.map entries') := by decide +kernel
    have hdatum : tree.toDatum = .map entries' := by
      obtain ⟨tree', hp', hd'⟩ := readDatum_eq_ok_iff.mp hread
      rw [Except.ok.inj (hp.symm.trans hp'), hd']
    rw [hdatum]
    constructor
    · rintro ns _ ⟨⟩ - name hname
      have hnames : importNames entries' = [] := by decide +kernel
      rw [hnames] at hname
      cases hname
    · intro other hother
      have hdeclared : declared? (.map entries') = some ("a" : Text) := by decide +kernel
      exact Or.inl (Option.some_inj.mp (hother.symm.trans hdeclared))
  have hstored : (l.store.namespace? "b").isSome := by decide +kernel
  have hstored' : (l'.store.namespace? "b").isSome := (congrArg Option.isSome hsame).trans hstored
  obtain ⟨hfindings, -, hrun⟩ := lint_findings_independent t t .absent .working uri hp hd hns
    (lint_issues rfl _ _) (by decide +kernel) (by decide +kernel) (himports _ hstored)
    (himports _ hstored') hagree
  exact ⟨by decide +kernel, hfindings, hrun older holder⟩

/-- A document refers to a namespace that it does not import. It has a finding, unless an
older version of it has loaded the namespace. -/
theorem lint_findings_loaded :
    let t : FileTree := ⟨⟨.single, ["ws"]⟩,
      [(["ws", "b.edn"],
        .file (Utf8.encode "{ns b x {:zen/tags #{zen/schema} :type zen/map}}"))], []⟩
    let l : Linter := fresh [⟨.relative, []⟩] []
    let text : Text := "{ns a d {:zen/tags #{b/x}}}"
    let older : Text := "{ns a import #{b}}"
    (l.lint t .absent text "file:///ws/app.edn").2.findings.map (·.message) =
        [("Could not resolve symbol 'b/x" : Text)] ∧
      ((l.lint t .absent older "file:///ws/app.edn").1.lint t .absent text
        "file:///ws/app.edn").2.findings.map (·.message) = [] := by
  decide +kernel

end Linter

end EdnLint
