import EdnLint.Proofs.Lint.Findings

/-!
# Resources

An issue inside a definition has a resource, the name of the definition qualified by the
namespace. The filter by namespace and the path of the issue read the two names off the
resource again. This goes well for every name that a definition can have, and for every
namespace without a stroke in its name. No issue inside a definition of any other namespace
gets through: its resource seems to name a definition of another namespace.
-/

namespace EdnLint

open Vocabulary

namespace Store

/-- What is found inside a definition has the definition as its resource. -/
theorem resource_of_mem_checkEntry [Pattern.Engine] {s : Store} {ns name : Text} {d : Datum}
    {i : Issue} (h : i ∈ (s.checkEntry ns (.symbol name) d).issues) :
    i.resource = some (Name.qualify ns name) := by
  rw [checkEntry] at h
  split at h
  · cases h
  · rcases List.mem_map.mp h with ⟨j, -, rfl⟩
    rfl

/-- The resource of an issue gives the namespace and the name of the definition back, the
issue is kept for the document, and its path starts at the definition, each of it exactly
if the namespace has no stroke in its name. -/
theorem checkEntry_resource_iff [Pattern.Engine] {text ns name : Text} {tree : Node}
    {entries : List (Key × Datum)} {d : Datum} {s : Store} {i : Issue}
    (hp : parse text = .ok tree) (hd : tree.toDatum = .map entries)
    (hns : declared? tree.toDatum = some ns) (hmem : (Key.symbol name, d) ∈ entries)
    (hi : i ∈ (s.checkEntry ns (.symbol name) d).issues) :
    ∃ resource, i.resource = some resource ∧
      (Name.qualifier? resource = some ns ↔ CodePoint.ofChar '/' ∉ ns) ∧
      (Name.base resource = name ↔ CodePoint.ofChar '/' ∉ ns) ∧
      (Lint.belongs (declared? tree.toDatum) i = true ↔ CodePoint.ofChar '/' ∉ ns) ∧
      (Lint.issuePath i = .symbol name :: i.path ↔ CodePoint.ofChar '/' ∉ ns) := by
  have hresource := resource_of_mem_checkEntry hi
  rcases parse_topForm (Q := fun _ => True) (fun _ _ => trivial) hp
    (forms_ne_nil_of_parse hp hd) with ⟨top, -, hform, hdatum⟩
  have hmap : top.toDatum = .map entries := hdatum.symm.trans hd
  have hq : ns ≠ [] := hform.declared_ne_nil hmap (hd ▸ hns)
  have hb : name ≠ [] := hform.name_ne_nil hmap hmem
  have hqualifier := Name.qualifier?_qualify_eq_some_iff hq hb
  have hbase := Name.base_qualify_eq_iff hq hb
  refine ⟨_, hresource, hqualifier, hbase, ?_, ?_⟩
  · rw [← hqualifier, hns]
    simp [Lint.belongs, hresource]
  · rw [← hbase]
    simp [Lint.issuePath, hresource, Key.symbol]

/-- A definition whose name starts and ends with a stroke is found by its resource. -/
theorem checkEntry_resource_strokes :
    let text : Text := "\x7bns a /b/ 5\x7d"
    let s : Store := .empty []
    let i : Issue := ⟨"Expected type of map, got integer", [], some "a//b/", .none, none⟩
    ∃ tree, parse text = .ok tree ∧ Lint.belongs (declared? tree.toDatum) i = true ∧
      Lint.issuePath i = [.symbol "/b/"] ∧
      (s.checkEntry "a" (.symbol "/b/") (.atom (.number (.int 5)))).issues = [i] := by
  intro text s i
  let entries : List (Key × Datum) :=
    [(.symbol "ns", .atom (.symbol "a")), (.symbol "/b/", .atom (.number (.int 5)))]
  have hread : readDatum text = .ok (.map entries) := by decide +kernel
  rcases readDatum_eq_ok_iff.mp hread with ⟨tree, hp, hd⟩
  have hns : declared? tree.toDatum = some ("a" : Text) := by
    rw [hd]
    decide +kernel
  have hissues : (s.checkEntry "a" (.symbol "/b/") (.atom (.number (.int 5)))).issues = [i] := rfl
  have hi : i ∈ (s.checkEntry "a" (.symbol "/b/") (.atom (.number (.int 5)))).issues := by
    rw [hissues]
    exact List.mem_cons_self
  rcases checkEntry_resource_iff hp hd hns (by simp [entries]) hi with
    ⟨resource, -, -, -, hbelongs, hpath⟩
  exact ⟨tree, hp, hbelongs.mpr (by decide), hpath.mpr (by decide), hissues⟩

/-- The issue of a definition is taken for one of another namespace, and is not shown. -/
theorem checkEntry_resource_lost :
    let text : Text := "\x7bns a/b d 5\x7d"
    let l : Linter := .fresh [] []
    let t : FileTree := ⟨⟨.single, []⟩, [], []⟩
    ∃ d, readDatum text = .ok d ∧ declared? d = some ("a/b" : Text) ∧
      (l.store.submit t d).store.issues.map Issue.resource = [some ("a/b/d" : Text)] ∧
      Name.qualifier? "a/b/d" = some ("a" : Text) ∧ Name.base "a/b/d" = ("b/d" : Text) ∧
      (l.lint t .absent text "file:///a.edn").2.findings = [] := by
  let entries : List (Key × Datum) :=
    [(.symbol "ns", .atom (.symbol "a/b")), (.symbol "d", .atom (.number (.int 5)))]
  refine ⟨.map entries, by decide +kernel, by decide +kernel, ?_, ?_, ?_, ?_⟩
  · decide +kernel
  · decide +kernel
  · decide +kernel
  · decide +kernel

end Store

end EdnLint
