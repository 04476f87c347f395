import EdnLint.Proofs.Datum.Display
import EdnLint.Proofs.Lint.Findings
import EdnLint.Proofs.Text.Digits

/-!
# Every issue has its place

The path of an issue walks the document that was submitted. The checks extend paths
only by steps that are there (`Problem.StandsAt`), and an issue inside a definition
has the definition as its first step. So the path resolves in the tree, all of it, or
all but a `:type` that is missing.

An issue about an unknown key belongs to the map around it. What marks such an issue is
its message, and the message of a missing key may be the same. It does no harm: where
the last step of the path is the key that the message names, that step was taken in a
map. Only in a vector are steps not keys, and an index reads as a number, which is no
end of the message of a missing key.
-/

namespace EdnLint

open Vocabulary

namespace Datum

/-- No map that a path leads to has the bare float that is not a number as a key. -/
def HasNoNaNKey (d : Datum) : Prop :=
  ∀ path entries, d.Walks path (.map entries) → ∀ e ∈ entries, e.1.isNaN = false

theorem hasNoNaNKey_map_iff {entries : List (Key × Datum)} :
    HasNoNaNKey (.map entries) ↔ ∀ e ∈ entries, e.1.isNaN = false ∧ e.2.HasNoNaNKey := by
  constructor
  · intro h e he
    exact ⟨h [] entries (.here _) e he, fun path stored hw => h (e.1 :: path) stored (.key he hw)⟩
  · intro h path stored hw
    cases hw with
    | here => exact fun e he => (h e he).1
    | key hmem hw => exact (h _ hmem).2 _ _ hw

theorem hasNoNaNKey_vector_iff {items : List Datum} :
    HasNoNaNKey (.vector items) ↔ ∀ d ∈ items, d.HasNoNaNKey := by
  constructor
  · intro h d hd path stored hw
    obtain ⟨i, hi⟩ := List.mem_iff_getElem?.mp hd
    exact h (.index i :: path) stored (.index hi hw)
  · intro h path stored hw
    cases hw with
    | index hi hw => exact h _ (List.mem_of_getElem? hi) _ _ hw

theorem hasNoNaNKey_atom (a : Atom) : HasNoNaNKey (.atom a) := by
  intro path stored hw
  cases hw

theorem hasNoNaNKey_set (items : List Key) : HasNoNaNKey (.set items) := by
  intro path stored hw
  cases hw

theorem HasNoNaNKey.path {d v : Datum} {path : List Key} (hd : d.HasNoNaNKey)
    (hw : d.Walks path v) : ∀ k ∈ path, k.isNaN = false := by
  induction hw with
  | here d => exact fun _ hk => absurd hk List.not_mem_nil
  | key hmem _ ih =>
      obtain ⟨hk, hd⟩ := hasNoNaNKey_map_iff.mp hd _ hmem
      exact List.forall_mem_cons.mpr ⟨hk, ih hd⟩
  | index hi _ ih =>
      have hd := hasNoNaNKey_vector_iff.mp hd _ (List.mem_of_getElem? hi)
      exact List.forall_mem_cons.mpr ⟨rfl, ih hd⟩

end Datum

namespace Problem

variable {root : Datum} {p : Problem} {path : List Key} {message : Text} {k : Key}

/-- A message that starts like that of an unknown key is of one, or of a missing
key. -/
theorem exists_keyMissing (hp : p.message = .ok message) (hunknown : p.isUnknownKey = false)
    (hmark : Lint.unknownKeyMark <+: message) : ∃ key, p = .keyMissing key := by
  obtain ⟨rest, rfl⟩ := hmark
  cases p with
  | keyMissing key => exact ⟨key, rfl⟩
  | unknownKey key => cases hunknown
  | unknownType | tooShort | tooLong | tooFewItems | tooManyItems | notAmong =>
      obtain ⟨_, -, h⟩ := exists_of_bind_eq_ok hp
      injection h with h
      injection h with h _
      cases h
  | tooSmall | tooLarge =>
      obtain ⟨_, -, h⟩ := exists_of_bind_eq_ok hp
      obtain ⟨_, -, h⟩ := exists_of_bind_eq_ok h
      injection h with h
      injection h with h _
      cases h
  | _ =>
      injection hp with h
      injection h with h _
      cases h

theorem mark_of_unknownKey (h : (unknownKey k).message = .ok message) :
    Lint.unknownKeyMark <+: message := by
  obtain ⟨text, -, h⟩ := exists_of_bind_eq_ok h
  cases h
  have hsplit : ("unknown key " : Text) = Lint.unknownKeyMark ++ " " := by decide +kernel
  rw [hsplit, List.append_assoc]
  exact List.prefix_append _ _

/-- No index reads as the end of the message of a missing key. -/
theorem unknownKey_index_ne_keyMissing {i : Nat} {key : Key}
    (h : (unknownKey (.index i)).message = .ok message) :
    (keyMissing key).message ≠ .ok message := by
  intro h'
  obtain ⟨number, hnumber, h⟩ := exists_of_bind_eq_ok h
  obtain ⟨text, -, h'⟩ := exists_of_bind_eq_ok h'
  have hdigits : number = Text.ofNat i := by
    simp only [Key.index, Key.plain, Atom.plain, Number.text, Number.intText] at hnumber
    split at hnumber
    · cases hnumber
    · cases hnumber
      rfl
  have heq : ("unknown key " : Text) ++ number = text ++ " is required" :=
    Except.ok.inj (h.trans h'.symm)
  have hlast := congrArg List.getLast? heq
  rw [List.getLast?_append_of_ne_nil _ (hdigits ▸ Text.ofNat_ne_nil i),
    List.getLast?_append_of_ne_nil _ (by decide)] at hlast
  have hmem : CodePoint.ofChar 'd' ∈ number := List.mem_of_getLast? hlast
  rw [hdigits] at hmem
  exact absurd (Text.isDigit_of_mem_ofNat hmem) (by decide)

namespace StandsAt

theorem key {entries : List (Key × Datum)} {d : Datum} (h : p.StandsAt d path)
    (hmem : (k, d) ∈ entries) : p.StandsAt (.map entries) (k :: path) := by
  cases h with
  | typeMissing hw hnil => exact .typeMissing (.key hmem hw) hnil
  | unknownKey hw hk => exact .unknownKey (.key hmem hw) hk
  | value hw hp habout =>
      exact .value (.key hmem hw) hp (habout.mono fun _ => Datum.Holds.value hmem)

/-- A problem stands at a value, or is the type that a map does not have. -/
theorem walks (h : p.StandsAt root path) :
    (∃ v, root.Walks path v) ∨
      p = .typeMissing ∧ ∃ above entries, path = above ++ [.keyword type] ∧
        root.Walks above (.map entries) ∧ Datum.field? entries type = none := by
  cases h with
  | @typeMissing above entries hw _ =>
      cases hfield : Datum.field? entries type with
      | none => exact Or.inr ⟨rfl, above, entries, rfl, hw, hfield⟩
      | some v => exact Or.inl ⟨v, hw.concat_key (Key.mem_of_lookup?_keyword hfield)⟩
  | unknownKey hw hmem => exact Or.inl ⟨_, hw.concat_key hmem⟩
  | value hw _ => exact Or.inl ⟨_, hw⟩

/-- The message of an unknown key names the last step of the path. -/
theorem names (h : p.StandsAt root path) (hp : p.message = .ok message)
    (hmark : Lint.unknownKeyMark <+: message) :
    (∃ k, path.getLast? = some k ∧ (Problem.unknownKey k).message = .ok message) ∨
      ∃ key, (keyMissing key).message = .ok message := by
  cases h with
  | typeMissing _ _ =>
      obtain ⟨key, hkey⟩ := exists_keyMissing hp rfl hmark
      cases hkey
  | unknownKey _ _ => exact Or.inl ⟨_, List.getLast?_concat, hp⟩
  | value _ hunknown =>
      obtain ⟨key, rfl⟩ := exists_keyMissing hp hunknown hmark
      exact Or.inr ⟨key, hp⟩

/-- Where the last step of the path is the key that the message names as unknown, the
step is taken in a map. -/
theorem inMap (h : p.StandsAt root path) (hp : p.message = .ok message)
    (hlast : path.getLast? = some k) (hk : (Problem.unknownKey k).message = .ok message) :
    ∃ above entries d, path = above ++ [k] ∧ root.Walks above (.map entries) ∧
      (k, d) ∈ entries := by
  cases h with
  | typeMissing _ _ =>
      obtain ⟨key, hkey⟩ := exists_keyMissing hp rfl (mark_of_unknownKey hk)
      cases hkey
  | unknownKey hw hmem =>
      rw [List.getLast?_concat, Option.some.injEq] at hlast
      subst hlast
      exact ⟨_, _, _, rfl, hw, hmem⟩
  | value hw hunknown =>
      obtain ⟨key, rfl⟩ := exists_keyMissing hp hunknown (mark_of_unknownKey hk)
      obtain ⟨above, rfl⟩ := List.getLast?_eq_some_iff.mp hlast
      rcases hw.of_concat with ⟨entries, d, hmap, hmem⟩ | ⟨i, rfl⟩
      · exact ⟨above, entries, d, rfl, hmap, hmem⟩
      · exact absurd hp (unknownKey_index_ne_keyMissing hk)

end StandsAt

end Problem

namespace Node

/-- A walk through the datum of a form, and the walk through the form that it is. -/
theorem Form.exists_walk {Q : Position → Prop} {n : Node} (hn : n.Form Q) {d v : Datum}
    (hd : n.toDatum = d) (hkeys : d.HasNoNaNKey) {path : List Key} (hw : d.Walks path v) :
    ∃ m, n.walk [] path = some ⟨m, true, path⟩ ∧ m.toDatum = v ∧ m.Form Q := by
  obtain ⟨m, hwalk, hm⟩ := walk_of_walks hn hw hd (hkeys.path hw) []
  rw [List.nil_append] at hwalk
  exact ⟨m, hwalk, hm, hn.walk hwalk⟩

end Node

namespace Lint

/-- The issue is that the last step of its path is an unknown key. -/
def NamesUnknown (i : Issue) (k : Key) : Prop :=
  (issuePath i).getLast? = some k ∧ (Problem.unknownKey k).message = .ok i.message

/-- Where an issue stands in the datum of a document: at a value, or it is a type that
a map does not have. If the message starts like that of an unknown key, it names the last
step, or it is the message of a missing key. -/
structure Stands (d : Datum) (i : Issue) : Prop where
  place : (∃ v, d.Walks (issuePath i) v) ∨
    i.message = (":type is required" : Text) ∧
      ∃ above entries, issuePath i = above ++ [.keyword type] ∧
        d.Walks above (.map entries) ∧ Datum.field? entries type = none
  named : unknownKeyMark <+: i.message →
    (∃ k, NamesUnknown i k) ∨ ∃ key, (Problem.keyMissing key).message = .ok i.message

/-- Where an issue is found in the tree of a document. Its path resolves, all of it, or
without the type that is missing; an unknown key is found in the map that has it. -/
structure Found (tree : Node) (i : Issue) : Prop where
  place : (∃ n, tree.resolve (issuePath i) false = some ⟨n, true, issuePath i⟩ ∧
      tree.toDatum.Walks (issuePath i) n.toDatum) ∨
    i.message = (":type is required" : Text) ∧
      ∃ above n, issuePath i = above ++ [.keyword type] ∧
        tree.resolve (issuePath i) false = some ⟨n, false, above⟩
  unknown : ∀ k, NamesUnknown i k → ∃ above n, issuePath i = above ++ [k] ∧
    tree.resolve (issuePath i) true = some ⟨n, true, above⟩ ∧
      n.unwrap.shape = .map ∧ (n.unwrap.child? k).isSome = true

section

variable {tree top : Node} {ns : Text} {entries : List (Key × Datum)} {i : Issue}

/-- An issue of a submission starts at an entry, and its problem stands where its path
leads. -/
theorem exists_problem (hns : ns ≠ []) (hstroke : CodePoint.ofChar '/' ∉ ns)
    (hnames : ∀ name d, (Key.symbol name, d) ∈ entries → name ≠ []) (hi : i.Raised ns entries) :
    (∃ k d rest, issuePath i = k :: rest ∧ (k, d) ∈ entries) ∧
      ∃ p : Problem, p.message = .ok i.message ∧ p.StandsAt (.map entries) (issuePath i) := by
  cases hi with
  | @entry k d p message hmem hp hmessage habout =>
      exact ⟨⟨k, d, [], rfl, hmem⟩, p, hmessage, .value (.key hmem (.here d)) hp habout⟩
  | @inside name d p path message hmem _ _ hp hmessage =>
      have hbase := Name.base_qualify hns hstroke (hnames name d hmem)
      simp only [issuePath, hbase]
      exact ⟨⟨.symbol name, d, path, rfl, hmem⟩, p, hmessage, hp.key hmem⟩

theorem stands_of_problem {d : Datum} {p : Problem} (hmessage : p.message = .ok i.message)
    (hp : p.StandsAt d (issuePath i)) : Stands d i := by
  refine ⟨?_, hp.names hmessage⟩
  rcases hp.walks with hw | ⟨rfl, hmissing⟩
  · exact Or.inl hw
  · exact Or.inr ⟨(Except.ok.inj hmessage).symm, hmissing⟩

theorem found_of_problem {Q : Position → Prop} {p : Problem} (htop : tree.topForm? = some top)
    (hform : top.Form Q) (hdatum : top.toDatum = .map entries) (htree : tree.toDatum = .map entries)
    (hkeys : Datum.HasNoNaNKey (.map entries))
    (hfirst : ∃ k d rest, issuePath i = k :: rest ∧ (k, d) ∈ entries)
    (hmessage : p.message = .ok i.message) (hp : p.StandsAt (.map entries) (issuePath i)) :
    Found tree i := by
  refine ⟨?_, ?_⟩
  · rcases hp.walks with ⟨v, hw⟩ | ⟨rfl, above, stored, hpath, hw, hmissing⟩
    · obtain ⟨n, hwalk, rfl, -⟩ := hform.exists_walk hdatum hkeys hw
      refine Or.inl ⟨n, ?_, htree ▸ hw⟩
      rw [Node.resolve, htop]
      exact hwalk
    · obtain ⟨n, hwalk, hn, hform'⟩ := hform.exists_walk hdatum hkeys hw
      refine Or.inr ⟨(Except.ok.inj hmessage).symm, above, n, hpath, ?_⟩
      have habove : above ≠ [] := by
        rintro rfl
        obtain ⟨k, d, rest, hfirst, hmem⟩ := hfirst
        obtain ⟨rfl, -⟩ := List.cons_eq_cons.mp (hfirst.symm.trans hpath)
        cases hw
        have hsome := Key.lookup?_isSome_of_mem hmem
        rw [Datum.field?] at hmissing
        rw [hmissing] at hsome
        cases hsome
      rw [hpath, Node.resolve, htop]
      change top.walk [] (above ++ [.keyword type]) = _
      rw [Node.walk_append hwalk, Node.walk_cons, Node.follow?_keyword_eq_none hform' hn hmissing]
      simp [habove]
  · rintro k ⟨hlast, hk⟩
    obtain ⟨above, stored, d, hpath, hw, hmem⟩ := hp.inMap hmessage hlast hk
    obtain ⟨n, hwalk, hn, hform'⟩ := hform.exists_walk hdatum hkeys hw
    have hnumber := hkeys above stored hw _ hmem
    obtain ⟨child, hchild, -, -⟩ := Node.follow?_of_mem hform' hn hmem hnumber
    refine ⟨above, n, hpath, ?_, (hform'.toDatum_eq_map hn).1, ?_⟩
    · rw [hpath, Node.resolve, htop]
      change top.walk [] (above ++ [k]).dropLast = _
      rw [List.dropLast_concat]
      exact hwalk
    · exact Option.isSome_iff_exists.mpr ⟨child, hchild⟩

end

end Lint

/-- Every issue that a submission adds stands in the submitted datum, and unless the
document has a key that is not a number it is found in the tree where it stands. -/
theorem Store.submit_issues_found [Pattern.Engine] {t : FileTree} {text ns : Text} {tree : Node}
    {entries : List (Key × Datum)} {s : Store} (hp : parse text = .ok tree)
    (hd : tree.toDatum = .map entries) (hns : declared? tree.toDatum = some ns)
    (hstroke : CodePoint.ofChar '/' ∉ ns) (hfault : (s.submit t tree.toDatum).fault = none) :
    ∃ added, (s.submit t tree.toDatum).store.issues = s.issues ++ added ∧
      ∀ i ∈ added, Lint.Stands tree.toDatum i ∧
        (tree.toDatum.HasNoNaNKey → Lint.Found tree i) := by
  obtain ⟨top, htop, hform, hdatum⟩ :=
    parse_topForm (Q := fun _ => True) (fun _ _ => trivial) hp (forms_ne_nil_of_parse hp hd)
  have hmap : top.toDatum = .map entries := hdatum.symm.trans hd
  rw [hd] at hns hfault ⊢
  obtain ⟨added, hadded, hraised⟩ := submitWith_raises t _ hns hfault
  refine ⟨added, hadded, fun i hi => ?_⟩
  obtain ⟨hfirst, p, hmessage, hstands⟩ := Lint.exists_problem (hform.declared_ne_nil hmap hns)
    hstroke (fun _ _ hmem => hform.name_ne_nil hmap hmem) (hraised i hi)
  exact ⟨Lint.stands_of_problem hmessage hstands, fun hkeys =>
    Lint.found_of_problem htop hform hmap hd hkeys hfirst hmessage hstands⟩

/-- A key that a schema does not take is found in the map around it, and a type that a
schema further down does not have is found one step short. -/
theorem Store.submit_issues_found_nested :
    let text : Text := "{ns a s {:zen/tags #{zen/schema} :type zen/map :bad 2 :keys {:k {:x 1}}}}"
    let t : FileTree := ⟨⟨.single, []⟩, [], []⟩
    let s : Store := .empty []
    let definition : Key := .symbol "s"
    let nested : List Key := [definition, .keyword "keys", .keyword "k"]
    ∃ tree, parse text = .ok tree ∧
      (s.submit t tree.toDatum).store.issues.map Lint.issuePath =
        [[definition, .keyword "bad"], nested ++ [.keyword "type"]] ∧
      ∀ i ∈ (s.submit t tree.toDatum).store.issues, Lint.Found tree i := by
  intro text t s definition nested
  let schema : List (Key × Datum) :=
    [(.keyword "zen/tags", .set [.symbol "zen/schema"]),
      (.keyword "type", .atom (.symbol "zen/map")),
      (.keyword "bad", .atom (.number (.int 2))),
      (.keyword "keys", .map [(.keyword "k", .map [(.keyword "x", .atom (.number (.int 1)))])])]
  let entries : List (Key × Datum) :=
    [(.symbol "ns", .atom (.symbol "a")), (definition, .map schema)]
  have hread : readDatum text = .ok (.map entries) := by decide +kernel
  obtain ⟨tree, hp, hd⟩ := readDatum_eq_ok_iff.mp hread
  have hns : declared? tree.toDatum = some ("a" : Text) := by
    rw [hd]
    decide +kernel
  have hfault : (s.submit t tree.toDatum).fault = none := by
    rw [hd]
    decide +kernel
  have hkeys : tree.toDatum.HasNoNaNKey := by
    rw [hd]
    simp [entries, schema, Datum.hasNoNaNKey_map_iff, Datum.hasNoNaNKey_atom,
      Datum.hasNoNaNKey_set, Key.keyword, Key.symbol, definition, Key.isNaN, Atom.isNaN]
  obtain ⟨added, hadded, hfound⟩ := submit_issues_found hp hd hns (by decide) hfault
  refine ⟨tree, hp, ?_, fun i hi => ?_⟩
  · rw [hd]
    decide +kernel
  · have hmem : i ∈ [] ++ added := hadded ▸ hi
    exact (hfound i hmem).2 hkeys

end EdnLint
