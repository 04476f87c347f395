import EdnLint.Proofs.Lint.Undeclared
import EdnLint.Proofs.Lint.Wording
import EdnLint.Proofs.Store.Keeping

/-!
# Issues that are taken for unknown keys

An issue whose message has the words `unknown key` in it is moved to the map around the place
where it stands. For an unknown key this is meant, because the message begins with the words.
For another problem it depends on what the message quotes: the issue is moved exactly if the
words are in a type, a pattern, a member of an enumeration or a key that is quoted, and then
it is found outside of the node that its path leads to.
-/

namespace EdnLint

open Vocabulary

deriving instance DecidableEq for Issue

namespace Node

/-- A path that resolves leads to a node inside of the one where it leads without its last
step. -/
theorem resolve_dropLast {tree n : Node} {path : List Key} (hpath : path ≠ [])
    (h : tree.resolve path false = some ⟨n, true, path⟩) :
    ∃ m, tree.resolve path true = some ⟨m, true, path.dropLast⟩ ∧ n.Inside m := by
  rcases Option.bind_eq_some_iff.mp h with ⟨top, htop, hwalk⟩
  have hsplit : path = path.dropLast ++ [path.getLast hpath] :=
    (List.dropLast_concat_getLast hpath).symm
  have hwalk : top.walk [] (path.dropLast ++ [path.getLast hpath]) = some ⟨n, true, path⟩ := by
    rw [← hsplit]
    exact hwalk
  rcases exists_walk_of_append hwalk with ⟨m, hm, hlast⟩
  refine ⟨m, ?_, ?_⟩
  · rw [resolve, htop]
    exact hm
  · rw [walk_cons] at hlast
    split at hlast
    · rename_i child hchild
      rw [walk_nil, Option.some.injEq, Location.mk.injEq] at hlast
      rw [← hlast.1]
      exact inside_of_follow? hchild
    · split at hlast
      · cases hlast
      · cases hlast

end Node

/-- The issue says the problem, and the words it quotes are those of a document that says
`root`. -/
def Problem.Explains (root : Datum) (p : Problem) (i : Issue) : Prop :=
  p.IsAbout root ∧ p.message = .ok i.message

/-- No space is in the names of a document that reads. -/
theorem space_not_mem_name {text : Text} {tree : Node} (hp : parse text = .ok tree) (a : Atom)
    (name : Text) (ha : tree.toDatum.Holds a) (hname : a.name? = some name) :
    CodePoint.ofChar ' ' ∉ name := by
  intro hspace
  have hterminator := isToken_name_of_parse hp ha hname _ hspace
  cases hterminator

namespace Lint

theorem isUnknownKey_iff_quotes {text : Text} {tree : Node} (hp : parse text = .ok tree)
    {p : Problem} {i : Issue} (hi : p.Explains tree.toDatum i) (hunknown : p.isUnknownKey = false) :
    isUnknownKey i = true ↔ p.Quotes unknownKeyMark := by
  rw [isUnknownKey, Text.hasInfix_iff]
  exact Problem.mark_message_iff (space_not_mem_name hp) hi.1 hunknown hi.2

end Lint

/-- An issue of a submission says a problem, and if it has no step in its path, the problem
quotes nothing. -/
theorem Store.submit_issues_explained [Pattern.Engine] {t : FileTree} {d : Datum} {s : Store}
    (hfault : (s.submit t d).fault = none) :
    ∃ added, (s.submit t d).store.issues = s.issues ++ added ∧ ∀ i ∈ added,
      ∃ p : Problem, p.Explains d i ∧
        (Lint.issuePath i = [] → p.isUnknownKey = false ∧ ¬ p.Quotes Lint.unknownKeyMark) := by
  cases hns : declared? d with
  | none =>
      rw [submit_of_undeclared t s hns]
      refine ⟨[Issue.undeclared d], rfl, ?_⟩
      intro i hi
      rw [List.mem_singleton.mp hi]
      cases d with
      | map entries => exact ⟨.noNamespaceName, ⟨trivial, rfl⟩, fun _ => ⟨rfl, id⟩⟩
      | _ => exact ⟨.notNamespace _, ⟨Or.inl ⟨_, rfl⟩, rfl⟩, fun _ => ⟨rfl, id⟩⟩
  | some ns =>
      rcases exists_map_of_declared hns with ⟨entries, rfl⟩
      rcases submitWith_raises t _ hns hfault with ⟨added, hadded, hraised⟩
      refine ⟨added, hadded, ?_⟩
      intro i hi
      cases hraised i hi with
      | @entry k d p message _ _ hmessage habout =>
          refine ⟨p, ⟨habout, hmessage⟩, ?_⟩
          intro hpath
          cases hpath
      | @inside name d p path message hmem _ _ hp hmessage =>
          refine ⟨p, ⟨hp.isAbout.mono fun _ => Datum.Holds.value hmem, hmessage⟩, ?_⟩
          intro hpath
          cases hpath

/-- Of the issues that a submission adds, an unknown key apart, those are moved whose
messages quote the words that mark an unknown key. Every other issue is located by its whole
path. -/
theorem Store.submit_issues_moved [Pattern.Engine] {t : FileTree} {text : Text} {tree : Node}
    {s : Store} (hp : parse text = .ok tree) (hfault : (s.submit t tree.toDatum).fault = none) :
    ∃ added, (s.submit t tree.toDatum).store.issues = s.issues ++ added ∧ ∀ i ∈ added,
      (∃ p : Problem, p.Explains tree.toDatum i) ∧
      ∀ p : Problem, p.Explains tree.toDatum i → p.isUnknownKey = false →
        (¬ p.Quotes Lint.unknownKeyMark →
          Lint.locate tree i = tree.resolve (Lint.issuePath i) false) ∧
        (p.Quotes Lint.unknownKeyMark →
          Lint.locate tree i = tree.resolve (Lint.issuePath i).dropLast false ∧
          ∀ n, tree.resolve (Lint.issuePath i) false = some ⟨n, true, Lint.issuePath i⟩ →
            ∃ m, Lint.locate tree i = some ⟨m, true, (Lint.issuePath i).dropLast⟩ ∧
              n.Inside m) := by
  rcases submit_issues_explained hfault with ⟨added, hadded, hexplained⟩
  refine ⟨added, hadded, ?_⟩
  intro i hi
  rcases hexplained i hi with ⟨q, hq, hroot⟩
  refine ⟨⟨q, hq⟩, ?_⟩
  intro p hexplains hunknown
  have hmark := Lint.isUnknownKey_iff_quotes hp hexplains hunknown
  constructor
  · intro hquotes
    have hfalse : Lint.isUnknownKey i = false := by
      rw [Bool.eq_false_iff, ne_eq, hmark]
      exact hquotes
    rw [Lint.locate, hfalse]
  · intro hquotes
    have htrue : Lint.isUnknownKey i = true := hmark.mpr hquotes
    have hpath : Lint.issuePath i ≠ [] := by
      intro hpath
      rcases hroot hpath with ⟨hknown, hnone⟩
      exact hnone ((Lint.isUnknownKey_iff_quotes hp hq hknown).mp htrue)
    rw [Lint.locate, htrue]
    exact ⟨rfl, fun n hn => Node.resolve_dropLast hpath hn⟩

/-- A type that says the words is moved, and a definition that is no map is not. -/
theorem Store.submit_issues_moved_type :
    let text : Text :=
      "\x7bns a s \x7b:zen/tags #\x7bzen/schema\x7d :type \"unknown key\"\x7d d 5\x7d"
    let s : Store := .empty []
    let t : FileTree := ⟨⟨.single, []⟩, [], []⟩
    let moved : Issue :=
      ⟨"Unknown type 'unknown key", [.keyword "type"], some "a/s", .none, none⟩
    let kept : Issue := ⟨"Expected type of map, got integer", [], some "a/d", .none, none⟩
    ∃ tree, parse text = .ok tree ∧
      (s.submit t tree.toDatum).store.issues = [moved, kept] ∧
      Lint.locate tree moved = tree.resolve [.symbol "s"] false ∧
      Lint.locate tree kept = tree.resolve [.symbol "d"] false := by
  intro text s t moved kept
  let schema : List (Key × Datum) :=
    [(.keyword "zen/tags", .set [.symbol "zen/schema"]),
      (.keyword "type", .atom (.string "unknown key"))]
  let entries : List (Key × Datum) :=
    [(.symbol "ns", .atom (.symbol "a")), (.symbol "s", .map schema),
      (.symbol "d", .atom (.number (.int 5)))]
  have hread : readDatum text = .ok (.map entries) := by decide +kernel
  rcases readDatum_eq_ok_iff.mp hread with ⟨tree, hp, hd⟩
  have hfault : (s.submit t tree.toDatum).fault = none := by
    rw [hd]
    decide +kernel
  have hissues : (s.submit t tree.toDatum).store.issues = [moved, kept] := by
    rw [hd]
    decide +kernel
  rcases submit_issues_moved hp hfault with ⟨added, hadded, hmoved⟩
  rw [hissues] at hadded
  have hmem : ∀ i ∈ [moved, kept], i ∈ added := by
    intro i hi
    rw [hadded] at hi
    exact hi
  have htype := (hmoved moved (hmem _ (by simp))).2 (.unknownType (.atom (.string "unknown key")))
    ⟨trivial, rfl⟩ rfl
  have hmap := (hmoved kept (hmem _ (by simp))).2 (.notDefinition "integer")
    ⟨Or.inl ⟨.atom (.number (.int 5)), rfl⟩, rfl⟩ rfl
  refine ⟨tree, hp, hissues, ?_, ?_⟩
  · have hquotes : (Problem.unknownType (.atom (.string "unknown key"))).Quotes
        Lint.unknownKeyMark := ⟨_, rfl, List.infix_refl _⟩
    exact (htype.2 hquotes).1
  · exact hmap.1 id

/-- The type that is reported stands behind its key, and the finding shows the map around
it. -/
theorem Linter.lint_moves_quoted_type :
    let text : Text := "\x7bns a s \x7b:zen/tags #\x7bzen/schema\x7d :type \"unknown key\"\x7d\x7d"
    let l : Linter := .fresh [] []
    let t : FileTree := ⟨⟨.single, []⟩, [], []⟩
    let message : Text := "Unknown type 'unknown key"
    let wanted := (parse text).toOption.bind fun tree =>
      (l.store.submit t tree.toDatum).store.issues.head?.bind fun i =>
        Finding.locate? (tree.resolve (Lint.issuePath i) false) i.hints (Text.lines text) i.message
          .warning
    wanted = some ⟨0, 39, 0, 52, message, .warning⟩ ∧
      (l.lint t .absent text "file:///a.edn").2.findings = [⟨0, 8, 0, 53, message, .warning⟩] := by
  intro text l t message wanted
  constructor
  · decide +kernel
  · decide +kernel

end EdnLint
