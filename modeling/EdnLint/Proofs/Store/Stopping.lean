import EdnLint.Linter
import EdnLint.Proofs.Schema.Validation
import EdnLint.Proofs.Store.NestedLoads

/-!
# What stops a submission

A submission whose imports are stored loads nothing, so it is stopped by the check
of a definition or not at all. The definition need not be at fault itself: its tag
may name a definition whose own tags are no collection, and asking those for a
member is a fault.

A submission that is not stopped records what is wrong with every entry. One that
is stopped leaves out the entries behind the definition that stops it, and a lint
cycle then shows nothing at all.
-/

namespace EdnLint

open Vocabulary

/-- The atoms that count as nothing: nil, false, a zero and the empty string. -/
def Atom.isNothing : Atom → Bool
  | .nil => true
  | .bool b => !b
  | .number n => n.isZero
  | .string t => t.isEmpty
  | .keyword _ => false
  | .symbol _ => false

namespace Store

variable {s : Store} {ns : Text} {body : List (Key × Datum)}

theorem fails_marksSchema_iff (d : Datum) :
    Fails (marksSchema d) ↔ ∃ a, d = .atom a ∧ a.isNothing = false := by
  match d with
  | .atom .nil => simp [marksSchema, Atom.isNothing]
  | .atom (.bool false) => simp [marksSchema, Atom.isNothing]
  | .atom (.bool true) => simp [marksSchema, Atom.isNothing]
  | .atom (.number n) =>
      simp only [marksSchema]
      split <;> simp_all [Atom.isNothing]
  | .atom (.string []) => simp [marksSchema, Atom.isNothing]
  | .atom (.string (c :: t)) => simp [marksSchema, Atom.isNothing]
  | .atom (.keyword name) => simp [marksSchema, Atom.isNothing]
  | .atom (.symbol name) => simp [marksSchema, Atom.isNothing]
  | .vector items => simp [marksSchema]
  | .set items => simp [marksSchema]
  | .map entries => simp [marksSchema]

section

variable [Pattern.Engine]

/-- A tag stops the check of a definition with the entries `body`. -/
inductive TagStops (s : Store) (ns : Text) (body : List (Key × Datum)) : Text → Prop
  | shape : Shape.Stops (.map body) → TagStops s ns body schemaTag
  /-- The tag names a definition whose own tags hold no members. -/
  | members {tag : Text} {schema : List (Key × Datum)} {a : Atom} :
      tag ≠ schemaTag → tag ≠ plainTag → s.definition? ns tag = some (.map schema) →
      Datum.field schema tags = .atom a → a.isNothing = false → TagStops s ns body tag
  | value {tag : Text} {schema : List (Key × Datum)} :
      tag ≠ schemaTag → tag ≠ plainTag → s.definition? ns tag = some (.map schema) →
      marksSchema (Datum.field schema tags) = .ok true →
      (Schema.ofDatum (.map schema)).Stops (.map body) → TagStops s ns body tag

theorem isStopped_checkTag_iff {tag : Text} :
    (s.checkTag ns body tag).IsStopped ↔ s.TagStops ns body tag := by
  constructor
  · intro h
    unfold checkTag at h
    split at h
    · rename_i htag
      subst htag
      exact .shape ((Shape.isStopped_check_iff _ _).mp h)
    · rename_i hschema
      split at h
      · exact absurd h Report.not_isStopped_none
      · rename_i hplain
        split at h
        · exact absurd ((Report.isStopped_problem_iff _ _).mp h) id
        · rename_i schema hdefinition
          split at h
          · rename_i fault hmarks
            rcases (fails_marksSchema_iff _).mp ⟨fault, hmarks⟩ with ⟨a, ha, hnothing⟩
            exact .members hschema hplain hdefinition ha hnothing
          · rename_i hmarks
            exact .value hschema hplain hdefinition hmarks
              ((Schema.isStopped_validate_iff _ _ _ _).mp h)
          · exact absurd h Report.not_isStopped_none
        · exact absurd h Report.not_isStopped_none
  · intro h
    cases h with
    | shape h =>
        unfold checkTag
        rw [if_pos rfl]
        exact (Shape.isStopped_check_iff _ _).mpr h
    | members hschema hplain hdefinition ha hnothing =>
        rcases (fails_marksSchema_iff _).mpr ⟨_, ha, hnothing⟩ with ⟨fault, hmarks⟩
        simp [checkTag, hschema, hplain, hdefinition, hmarks]
    | value hschema hplain hdefinition hmarks h =>
        simpa [checkTag, hschema, hplain, hdefinition, hmarks] using
          (Schema.isStopped_validate_iff _ _ _ _).mpr h

/-- One of its tags stops the check of a definition. -/
def DefinitionStops (s : Store) (ns : Text) (d : Datum) : Prop :=
  ∃ body names tag, d = .map body ∧ symbolNames? (Datum.field body tags) = some names ∧
    tag ∈ names ∧ s.TagStops ns body tag

theorem isStopped_checkBody_iff {d : Datum} :
    (s.checkBody ns d).IsStopped ↔ s.DefinitionStops ns d := by
  cases d with
  | map body =>
      simp only [checkBody, DefinitionStops, Datum.map.injEq]
      split
      · rename_i hnil
        have hnames : symbolNames? (Datum.field body tags) = none := by
          unfold Datum.isNil at hnil
          split at hnil
          · rename_i hfield
            rw [hfield]
            rfl
          · cases hnil
        simp [hnames]
      · cases hnames : symbolNames? (Datum.field body tags) with
        | none => simp [hnames, Problem.IsTooLong]
        | some names =>
            simp only [Report.isStopped_all_map_iff, isStopped_checkTag_iff]
            simp [hnames]
  | _ => simp [checkBody, DefinitionStops, Problem.IsTooLong]

theorem isStopped_checkEntry_iff {k : Key} {d : Datum} :
    (s.checkEntry ns k d).IsStopped ↔
      ∃ name, k = .symbol name ∧ k ≠ Vocabulary.ns ∧ k ≠ imports ∧ s.DefinitionStops ns d := by
  cases hk : k.symbol? with
  | none =>
      apply iff_of_false
      · unfold checkEntry
        split <;> simp [hk, Problem.IsTooLong]
      · rintro ⟨name, rfl, -⟩
        cases hk
  | some name =>
      obtain rfl := Key.eq_symbol_of_symbol? hk
      simp only [checkEntry, Bool.or_eq_true, Key.symbol_same_iff, eq_comm (b := Key.symbol name)]
      split
      · rename_i h
        refine iff_of_false Report.not_isStopped_none ?_
        rintro ⟨-, -, hns, himports, -⟩
        exact h.elim hns himports
      · rename_i h
        rw [not_or] at h
        simp [hk, isStopped_checkBody_iff, h]

/-- The imports that a datum lists as a namespace are stored. -/
def ImportsStored (s : Store) (d : Datum) : Prop :=
  ∀ ns entries, d = .map entries → declared? d = some ns →
    ∀ name ∈ importNames entries, name = ns ∨ (s.namespace? name).isSome

omit [Pattern.Engine] in
/-- Stored imports are not loaded. What is left is that the list of them may be wrong,
and this does not depend on the store. -/
theorem exists_loadImports_eq (entries : List (Key × Datum)) :
    ∃ added, ∀ (t : FileTree) (load : Path → Store → Outcome) (ns : Text) (s : Store),
      (∀ name ∈ importNames entries, (s.namespace? name).isSome) →
      loadImports t load ns ((Key.lookup? imports entries).getD .nil) s =
        .done { s with issues := s.issues ++ added } := by
  unfold loadImports
  split
  · exact ⟨[], fun _ _ _ s _ => by simp⟩
  split
  · exact ⟨_, fun _ _ _ _ _ => rfl⟩
  · rename_i names hnames
    refine ⟨[], fun _ _ _ s h => ?_⟩
    rw [importNames, hnames] at h
    simpa using each_loadImport_of_stored h

/-- What a submission without a load does. What is wrong with the imports depends on the
list of them and on nothing else. -/
theorem exists_submit_eq_of_imports (listing : List (Key × Datum)) :
    ∃ added, ∀ (t : FileTree) (s : Store) (ns : Text) (entries : List (Key × Datum)),
      Key.lookup? imports entries = Key.lookup? imports listing →
      s.ImportsStored (.map entries) → declared? (.map entries) = some ns →
      s.submit t (.map entries) =
        .record { s.put ns entries with issues := s.issues ++ added }
          (Report.all (entries.map fun e => (s.put ns entries).checkEntry ns e.1 e.2)) := by
  rcases exists_loadImports_eq listing with ⟨added, hload⟩
  refine ⟨added, fun t s ns entries hlisted h hns => ?_⟩
  have hnames : importNames entries = importNames listing := by
    rw [importNames, importNames, hlisted]
  have hstored : ∀ name ∈ importNames listing, ((s.put ns entries).namespace? name).isSome :=
    fun name hname => isSome_namespace?_put.mpr (h ns entries rfl hns name (hnames ▸ hname))
  unfold submit submitWith
  simp only [hns]
  rw [hlisted, hload _ _ _ _ hstored, Outcome.done_andThen]
  rfl

theorem exists_submit_eq (entries : List (Key × Datum)) :
    ∃ added, ∀ (t : FileTree) (s : Store) (ns : Text), s.ImportsStored (.map entries) →
      declared? (.map entries) = some ns →
      s.submit t (.map entries) =
        .record { s.put ns entries with issues := s.issues ++ added }
          (Report.all (entries.map fun e => (s.put ns entries).checkEntry ns e.1 e.2)) := by
  rcases exists_submit_eq_of_imports entries with ⟨added, hsubmit⟩
  exact ⟨added, fun t s ns => hsubmit t s ns entries rfl⟩

theorem submit_of_importsStored {t : FileTree} {entries : List (Key × Datum)}
    (h : s.ImportsStored (.map entries)) (hns : declared? (.map entries) = some ns) :
    ∃ added, s.submit t (.map entries) =
      .record { s.put ns entries with issues := s.issues ++ added }
        (Report.all (entries.map fun e => (s.put ns entries).checkEntry ns e.1 e.2)) := by
  rcases exists_submit_eq entries with ⟨added, hsubmit⟩
  exact ⟨added, hsubmit t s ns h hns⟩

/-- A submission that never comes to the entries is not stopped. -/
theorem submit_of_not_declared {t : FileTree} {d : Datum} (h : declared? d = none) :
    (s.submit t d).fault = none := by
  obtain ⟨r, hrecord, hfault⟩ : ∃ r, s.submit t d = .record s r ∧ r.fault = none :=
    submitWith_of_not_declared h
  exact (congrArg Outcome.fault hrecord).trans hfault

end

/-- A report that is not stopped has the issues of all its parts, in their order. -/
theorem issues_all {rs : List Report} (h : ¬ (Report.all rs).IsStopped) :
    (Report.all rs).issues = rs.flatMap (·.issues) := by
  induction rs with
  | nil => rfl
  | cons r rs ih =>
      rw [Report.all_cons, Report.isStopped_andThen_iff, not_or] at h
      have hfault : r.fault = none := not_not.mp h.1
      rw [List.flatMap_cons, ← ih h.2, Report.all_cons, Report.andThen, hfault]

theorem mem_issues_all {rs : List Report} (h : ¬ (Report.all rs).IsStopped) {r : Report}
    (hr : r ∈ rs) {i : Issue} (hi : i ∈ r.issues) : i ∈ (Report.all rs).issues := by
  rw [issues_all h]
  exact List.mem_flatMap.mpr ⟨r, hr, hi⟩

/-- When submitting a datum is stopped. Its imports being stored, one of its
definitions has to stop it, and unless one does, everything that is wrong with any
entry is recorded. -/
theorem submit_stops_iff [Pattern.Engine] (t : FileTree) (s : Store) (d : Datum)
    (h : s.ImportsStored d) :
    ((s.submit t d).fault ≠ none ↔
      ∃ ns entries name definition, d = .map entries ∧ declared? d = some ns ∧
        (Key.symbol name, definition) ∈ entries ∧ Key.symbol name ≠ Vocabulary.ns ∧
        Key.symbol name ≠ imports ∧ (s.put ns entries).DefinitionStops ns definition) ∧
    ((s.submit t d).fault = none →
      ∀ ns entries, d = .map entries → declared? d = some ns →
        ∀ e ∈ entries, ∀ i ∈ ((s.put ns entries).checkEntry ns e.1 e.2).issues,
          i ∈ (s.submit t d).store.issues) := by
  constructor
  · constructor
    · intro hstopped
      cases hns : declared? d with
      | none => exact absurd (submit_of_not_declared hns) hstopped
      | some ns =>
          obtain ⟨entries, rfl⟩ : ∃ entries, d = .map entries := by
            unfold declared? at hns
            split at hns
            · exact ⟨_, rfl⟩
            · cases hns
          rcases submit_of_importsStored (t := t) h hns with ⟨added, hsubmit⟩
          rw [hsubmit] at hstopped
          rcases (Report.isStopped_all_map_iff _ _).mp hstopped with ⟨⟨k, d⟩, hmem, hentry⟩
          rcases isStopped_checkEntry_iff.mp hentry with ⟨name, rfl, hname⟩
          exact ⟨ns, entries, name, d, rfl, rfl, hmem, hname⟩
    · rintro ⟨ns, entries, name, definition, rfl, hns, hmem, hname⟩
      rcases submit_of_importsStored (t := t) h hns with ⟨added, hsubmit⟩
      rw [hsubmit]
      refine (Report.isStopped_all_map_iff _ _).mpr ⟨_, hmem, ?_⟩
      exact isStopped_checkEntry_iff.mpr ⟨name, rfl, hname⟩
  · rintro hfault ns entries rfl hns e he i hi
    rcases submit_of_importsStored (t := t) h hns with ⟨added, hsubmit⟩
    rw [hsubmit] at hfault ⊢
    apply List.mem_append_right
    exact mem_issues_all (not_not.mpr hfault) (List.mem_map_of_mem he) hi

/-- The tag of `d` is imported, and the tags of its definition are a number. -/
theorem submit_stops_imported :
    let stored : List (Key × Datum) := [(Vocabulary.ns, .atom (.symbol "a")),
      (.symbol "s", .map [(.keyword tags, .atom (.number (.int 5)))])]
    let body : List (Key × Datum) := [(.keyword tags, .set [.symbol "a/s"])]
    let entries : List (Key × Datum) := [(Vocabulary.ns, .atom (.symbol "b")),
      (imports, .set [.symbol "a"]), (.symbol "d", .map body)]
    let s := (Store.empty []).put "a" stored
    s.ImportsStored (.map entries) ∧
      (s.submit ⟨⟨.single, ["ws"]⟩, [], []⟩ (.map entries)).fault ≠ none := by
  intro stored body entries s
  have himports : s.ImportsStored (.map entries) := by
    rintro ns _ ⟨⟩ - name hname
    have hnames : importNames entries = [("a" : Text)] := by decide +kernel
    rw [hnames, List.mem_singleton] at hname
    subst hname
    exact Or.inr (by decide)
  have htags : symbolNames? (Datum.field body tags) = some [("a/s" : Text)] := by decide +kernel
  have hstops : (s.put "b" entries).TagStops "b" body "a/s" :=
    .members (by decide) (by decide) rfl rfl (by decide)
  refine ⟨himports, (submit_stops_iff _ s _ himports).1.mpr ?_⟩
  exact ⟨"b", entries, "d", .map body, rfl, rfl, by simp [entries], by decide, by decide,
    body, _, _, rfl, htags, List.mem_singleton_self _, hstops⟩

/-- The tags of `s` are a number, and `d` is tagged with it. No finding tells so, nor
that `e` is no map, which is told where `e` is alone. -/
theorem submit_stopped_silently :
    let t : FileTree := ⟨⟨.single, ["ws"]⟩, [], []⟩
    let text : Text := "\x7bns a s \x7b:zen/tags 5\x7d d \x7b:zen/tags #\x7bs\x7d\x7d e 3\x7d"
    let found (text : Text) : List Text :=
      ((Linter.fresh [] []).lint t .absent text "file:///ws/a.edn").2.findings.map (·.message)
    ((readDatum text).toOption.map fun d => ((Store.empty []).submit t d).fault) =
        some (some .notContainer) ∧
      found text = [] ∧ found "\x7bns a e 3\x7d" = ["Expected type of map, got integer"] := by
  decide +kernel

end Store

end EdnLint
