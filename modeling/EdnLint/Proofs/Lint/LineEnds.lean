import EdnLint.Linter
import EdnLint.Proofs.Document.LineEnds

/-!
# Line ends and findings

Findings are made of lines and columns, and what a document says does not depend on where
it says it. So trees that are the same up to offsets have the same findings, whatever the
validator has to say. A document with carriage returns in front of its line feeds has
such a tree, and it has the same lines, and therefore its lint comes to the same as that
of the document without them.
-/

namespace EdnLint

namespace Node

mutual

theorem toKey_withoutOffsets : (n : Node) → n.withoutOffsets.toKey = n.toKey
  | .mk shape start stop forms => by
      cases shape <;> simp only [withoutOffsets, toKey, toKeys_allWithoutOffsets forms,
        entryKeys_allWithoutOffsets forms, lastKey_allWithoutOffsets forms]

theorem toKeys_allWithoutOffsets : (ns : List Node) → toKeys (allWithoutOffsets ns) = toKeys ns
  | [] => rfl
  | n :: ns => by
      simp only [allWithoutOffsets, toKeys, toKey_withoutOffsets n, toKeys_allWithoutOffsets ns]

theorem entryKeys_allWithoutOffsets :
    (ns : List Node) → entryKeys (allWithoutOffsets ns) = entryKeys ns
  | [] => rfl
  | [_] => rfl
  | k :: n :: ns => by
      simp only [allWithoutOffsets, entryKeys, toKey_withoutOffsets k, toKey_withoutOffsets n,
        entryKeys_allWithoutOffsets ns]

theorem lastKey_allWithoutOffsets : (ns : List Node) → lastKey (allWithoutOffsets ns) = lastKey ns
  | [] => rfl
  | [n] => toKey_withoutOffsets n
  | _ :: n :: ns => lastKey_allWithoutOffsets (n :: ns)

end

mutual

theorem toDatum_withoutOffsets : (n : Node) → n.withoutOffsets.toDatum = n.toDatum
  | .mk shape start stop forms => by
      cases shape <;> simp only [withoutOffsets, toDatum, toKeys_allWithoutOffsets forms,
        toData_allWithoutOffsets forms, entryData_allWithoutOffsets forms,
        firstDatum_allWithoutOffsets forms, lastDatum_allWithoutOffsets forms]

theorem toData_allWithoutOffsets : (ns : List Node) → toData (allWithoutOffsets ns) = toData ns
  | [] => rfl
  | n :: ns => by
      simp only [allWithoutOffsets, toData, toDatum_withoutOffsets n, toData_allWithoutOffsets ns]

theorem entryData_allWithoutOffsets :
    (ns : List Node) → entryData (allWithoutOffsets ns) = entryData ns
  | [] => rfl
  | [_] => rfl
  | k :: n :: ns => by
      simp only [allWithoutOffsets, entryData, toKey_withoutOffsets k, toDatum_withoutOffsets n,
        entryData_allWithoutOffsets ns]

theorem firstDatum_allWithoutOffsets :
    (ns : List Node) → firstDatum (allWithoutOffsets ns) = firstDatum ns
  | [] => rfl
  | n :: _ => toDatum_withoutOffsets n

theorem lastDatum_allWithoutOffsets :
    (ns : List Node) → lastDatum (allWithoutOffsets ns) = lastDatum ns
  | [] => rfl
  | [n] => toDatum_withoutOffsets n
  | _ :: n :: ns => lastDatum_allWithoutOffsets (n :: ns)

end

mutual

theorem unwrap_withoutOffsets : (n : Node) → n.withoutOffsets.unwrap = n.unwrap.withoutOffsets
  | .mk shape start stop forms => by
      simp only [withoutOffsets, unwrap]
      split
      · exact unwrapLast_allWithoutOffsets (.mk shape start stop forms) forms
      · rfl

theorem unwrapLast_allWithoutOffsets (whole : Node) :
    (ns : List Node) → unwrapLast whole.withoutOffsets (allWithoutOffsets ns) =
      (unwrapLast whole ns).withoutOffsets
  | [] => rfl
  | [n] => unwrap_withoutOffsets n
  | _ :: n :: ns => unwrapLast_allWithoutOffsets whole (n :: ns)

end

theorem entries_withoutOffsets : (forms : List Node) →
    entries (forms.map withoutOffsets) = (entries forms).map (Prod.map id withoutOffsets)
  | [] => rfl
  | [_] => rfl
  | k :: n :: forms => by simp [entries, toKey_withoutOffsets, entries_withoutOffsets forms]

theorem indexedFrom_withoutOffsets (i : Nat) (forms : List Node) :
    indexedFrom i (forms.map withoutOffsets) =
      (indexedFrom i forms).map (Prod.map id withoutOffsets) := by
  induction forms generalizing i with
  | nil => rfl
  | cons n forms ih => simp [indexedFrom, ih]

@[simp] theorem shape_withoutOffsets (n : Node) : n.withoutOffsets.shape = n.shape := by
  cases n
  rfl

@[simp] theorem forms_withoutOffsets (n : Node) :
    n.withoutOffsets.forms = n.forms.map withoutOffsets := by
  cases n
  simp

theorem children_withoutOffsets (n : Node) :
    n.withoutOffsets.children = n.children.map (Prod.map id withoutOffsets) := by
  unfold children
  rw [shape_withoutOffsets, forms_withoutOffsets, entries_withoutOffsets,
    indexedFrom_withoutOffsets]
  split_ifs <;> rfl

theorem follow?_withoutOffsets (n : Node) (step : Key) :
    n.withoutOffsets.follow? step = (n.follow? step).map withoutOffsets := by
  rw [follow?, unwrap_withoutOffsets, child?, children_withoutOffsets, List.find?_map, follow?,
    child?, Option.map_map, Option.map_map]
  rfl

end Node

/-- The location with lines and columns alone. -/
def Location.withoutOffsets (l : Location) : Location := { l with node := l.node.withoutOffsets }

namespace Node

theorem walk_withoutOffsets (n : Node) (matched path : List Key) :
    n.withoutOffsets.walk matched path = (n.walk matched path).map Location.withoutOffsets := by
  induction path generalizing n matched with
  | nil => rfl
  | cons step path ih =>
      rw [walk_cons, walk_cons, follow?_withoutOffsets]
      cases n.follow? step with
      | some child => exact ih child _
      | none =>
          dsimp only [Option.map_none]
          split <;> rfl

theorem topForm?_withoutOffsets (n : Node) :
    n.withoutOffsets.topForm? = n.topForm?.map withoutOffsets := by
  unfold topForm?
  rw [shape_withoutOffsets, forms_withoutOffsets, List.head?_map]
  split <;> rfl

theorem resolve_withoutOffsets (n : Node) (path : List Key) (unknownKey : Bool) :
    n.withoutOffsets.resolve path unknownKey =
      (n.resolve path unknownKey).map Location.withoutOffsets := by
  rw [resolve, resolve, topForm?_withoutOffsets, Option.bind_map, Option.map_bind]
  exact congrArg _ (funext fun top => top.walk_withoutOffsets _ _)

end Node

namespace Lint

theorem finding?_withoutOffsets (tree : Node) (lines : List Text) (i : Issue) :
    finding? tree.withoutOffsets lines i = finding? tree lines i := by
  unfold finding? Finding.locate? locate
  rw [Node.resolve_withoutOffsets]
  split
  · rfl
  · rw [Option.map_map]
    refine congrArg (Option.map · _) (funext fun l => ?_)
    obtain ⟨⟨shape, start, stop, forms⟩, exact, matched⟩ := l
    rfl

theorem locationNote_withoutOffsets (tree : Node) (i : Issue) :
    locationNote tree.withoutOffsets i = locationNote tree i := by
  unfold locationNote locate
  rw [Node.resolve_withoutOffsets, Node.topForm?_withoutOffsets]
  cases tree.topForm? with
  | none => rfl
  | some top =>
      dsimp only
      generalize (if isUnknownKey i then (issuePath i).dropLast else issuePath i) = path
      cases tree.resolve (issuePath i) (isUnknownKey i) with
      | none => cases path <;> rfl
      | some l =>
          obtain ⟨node, exact, matched⟩ := l
          cases exact <;> rfl

theorem findings_withoutOffsets (tree : Node) (lines : List Text) (ns : Option Text)
    (issues : List Issue) :
    findings tree.withoutOffsets lines ns issues = findings tree lines ns issues := by
  induction issues with
  | nil => rfl
  | cons i issues ih =>
      simp only [findings, ih, finding?_withoutOffsets, locationNote_withoutOffsets]

/-- What is made of a document that reads depends on its lines and on its tree up to
offsets. -/
theorem cycle_congr {σ : Type} {text text' : Text} {tree tree' : Node}
    (hp : parse text = .ok tree) (hp' : parse text' = .ok tree')
    (htree : tree'.withoutOffsets = tree.withoutOffsets)
    (hlines : Text.lines text' = Text.lines text) (v : Validator σ) (uri : Text) (s : σ) :
    cycle v text' uri s = cycle v text uri s := by
  have hdatum : tree'.toDatum = tree.toDatum := by
    rw [← tree'.toDatum_withoutOffsets, htree, tree.toDatum_withoutOffsets]
  have hfindings : ∀ lines ns issues,
      findings tree' lines ns issues = findings tree lines ns issues := by
    intro lines ns issues
    rw [← findings_withoutOffsets tree', htree, findings_withoutOffsets]
  unfold cycle
  simp only [hp, hp', hdatum, hlines, hfindings]

end Lint

namespace Linter

/-- Line ends do not matter to a lint. Put a carriage return in front of each line feed
of a document that has none yet, that reads, and whose lines end outside of strings,
patterns and characters. The findings are the same, and so is everything else that comes
of the lint; the tree is the same but for offsets, and the lines are the same. -/
theorem lint_withReturns [Pattern.Engine] {text : Text} {tree : Node} (t : FileTree) (sink : Sink)
    (uri : Text) (l : Linter) (hreturn : CodePoint.ofChar '\r' ∉ text) (hp : parse text = .ok tree)
    (hends : Reader.initial.EndsLinesOutside text) :
    l.lint t sink (Text.withReturns text) uri = l.lint t sink text uri ∧
      (∃ tree', parse (Text.withReturns text) = .ok tree' ∧
        tree'.withoutOffsets = tree.withoutOffsets) ∧
      Text.lines (Text.withReturns text) = Text.lines text := by
  obtain ⟨tree', hp', htree⟩ := exists_parse_withReturns hp hends
  have hlines : Text.lines (Text.withReturns text) = Text.lines text := by
    rw [Text.lines_withReturns, Text.lines_of_not_mem hreturn]
  have hcycle := Lint.cycle_congr hp hp' htree hlines (Store.validator t) uri l.store
  refine ⟨?_, ⟨tree', hp', htree⟩, hlines⟩
  unfold lint Lint.run
  rw [hcycle]

/-- A comment, tokens, a tag and a character in front of line ends, and a finding that
goes over three lines. -/
theorem lint_withReturns_comment :
    let text : Text := "\x7bns a ; x\n b\n\x7b:zen/tags\n#t\n#\x7b\\c\n\x7d\x7d\x7d"
    let uri : Text := "file:///ws/a.edn"
    let t : FileTree := ⟨⟨.single, ["ws"]⟩, [], []⟩
    let l : Linter := fresh [] []
    ((l.lint t .absent text uri).2.findings.map fun f =>
        (f.startLine, f.startCol, f.endLine, f.endCol)) = [(3, 0, 5, 1)] ∧
      l.lint t .absent (Text.withReturns text) uri = l.lint t .absent text uri := by
  intro text uri t l
  have hreads : (parse text).toOption.isSome = true := by decide +kernel
  cases hp : parse text with
  | error e =>
      rw [hp] at hreads
      cases hreads
  | ok tree =>
      exact ⟨by decide +kernel, (lint_withReturns t .absent uri l (by decide +kernel) hp
        (by decide +kernel)).1⟩

end Linter

end EdnLint
