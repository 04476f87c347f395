import EdnLint.Proofs.Datum.Same
import EdnLint.Proofs.Schema.Reports
import EdnLint.Proofs.Store.Outcome
import EdnLint.Store.Loading

/-!
# The issues of a submission

A submission that is not stopped adds its issues behind those that were there.
Each of them stands in the submitted map: at an entry of it, or at a place inside a
definition, whose name is then the base of the issue's resource (`Issue.Raised`).
Nothing comes from the files that were loaded on the way, because the issues that
were there before an import is loaded are put back after it.
-/

namespace EdnLint

namespace Store

/-- The second store has the issues of the first, and behind them issues that
satisfy `P`. -/
def Adds (P : Issue → Prop) (s s' : Store) : Prop :=
  ∃ added, s'.issues = s.issues ++ added ∧ ∀ i ∈ added, P i

theorem adds_refl {P : Issue → Prop} (s : Store) : Adds P s s := ⟨[], by simp⟩

theorem Adds.trans {P : Issue → Prop} {s₁ s₂ s₃ : Store} (h : Adds P s₁ s₂) (h' : Adds P s₂ s₃) :
    Adds P s₁ s₃ := by
  obtain ⟨added, hadded, hP⟩ := h
  obtain ⟨added', hadded', hP'⟩ := h'
  refine ⟨added ++ added', by rw [hadded', hadded, List.append_assoc], fun i hi => ?_⟩
  exact (List.mem_append.mp hi).elim (hP i) (hP' i)

theorem adds_record {P : Issue → Prop} {r : Report} (h : r.Every P) (s : Store) :
    Adds P s (Outcome.record s r).store :=
  ⟨r.issues, rfl, h⟩

end Store

namespace Issue

/-- The issue stands in a map of entries that declares the namespace `ns`: at an
entry itself, or inside a definition. -/
def StandsIn (ns : Text) (entries : List (Key × Datum)) (i : Issue) : Prop :=
  (i.resource = none ∧ ∃ k d, (k, d) ∈ entries ∧ i.path = [k]) ∨
    ∃ name d, (Key.symbol name, d) ∈ entries ∧ i.resource = some (Name.qualify ns name)

/-- An issue as a submission records it: its place, and no more about it. -/
structure IsRecorded (ns : Text) (entries : List (Key × Datum)) (i : Issue) : Prop where
  hints : i.hints = .none
  severity : i.severity = none
  place : i.StandsIn ns entries

/-- The issues that a submission can raise, with their problems: of an entry, and of
a definition at a place in it. -/
inductive Raised (ns : Text) (entries : List (Key × Datum)) : Issue → Prop
  | entry {k : Key} {d : Datum} {p : Problem} {message : Text} :
      (k, d) ∈ entries → p.isUnknownKey = false → p.message = .ok message →
      p.IsAbout (.map entries) → Raised ns entries ⟨message, [k], none, .none, none⟩
  | inside {name : Text} {d : Datum} {p : Problem} {path : List Key} {message : Text} :
      (Key.symbol name, d) ∈ entries → Key.symbol name ≠ Vocabulary.ns →
      Key.symbol name ≠ Vocabulary.imports → p.StandsAt d path → p.message = .ok message →
      Raised ns entries ⟨message, path, some (Name.qualify ns name), .none, none⟩

theorem Raised.isRecorded {ns : Text} {entries : List (Key × Datum)} {i : Issue}
    (h : i.Raised ns entries) : i.IsRecorded ns entries := by
  cases h with
  | entry hmem _ _ _ => exact ⟨rfl, rfl, Or.inl ⟨rfl, _, _, hmem, rfl⟩⟩
  | inside hmem _ _ _ _ => exact ⟨rfl, rfl, Or.inr ⟨_, _, hmem, rfl⟩⟩

end Issue

namespace Store

open Vocabulary

variable {ns : Text} {entries : List (Key × Datum)}

theorem problem_raised {k : Key} {d : Datum} (h : (k, d) ∈ entries) {p : Problem}
    (hp : p.isUnknownKey = false) (habout : p.IsAbout (.map entries)) :
    (Report.problem p [k]).Every (Issue.Raised ns entries) := by
  intro i hi
  obtain ⟨message, hmessage, rfl⟩ := Report.mem_problem hi
  exact .entry h hp hmessage habout

/-- The names of a set of symbols are in the set. -/
theorem holds_of_symbolNames? {d : Datum} {names : List Text} (h : symbolNames? d = some names)
    {name : Text} (hname : name ∈ names) : d.Holds (.symbol name) := by
  cases d with
  | set items =>
      rcases Option.map_eq_some_iff.mp h with ⟨listed, hlisted, rfl⟩
      rw [List.mem_mergeSort] at hname
      have hmem : Key.symbol name ∈ items := by
        clear h
        induction items generalizing listed with
        | nil =>
            cases hlisted
            cases hname
        | cons k items ih =>
            rw [List.mapM_cons] at hlisted
            rcases Option.bind_eq_some_iff.mp hlisted with ⟨first, hfirst, hlisted⟩
            rcases Option.bind_eq_some_iff.mp hlisted with ⟨rest, hrest, heq⟩
            cases heq
            rcases List.mem_cons.mp hname with rfl | hname
            · exact List.mem_cons.mpr (Or.inl (Key.eq_symbol_of_symbol? hfirst).symm)
            · exact List.mem_cons_of_mem k (ih rest hrest hname)
      exact .member hmem .atom
  | _ => cases h

section

variable {P : Issue → Prop} {d : Datum} (hP : Report.EveryIn P d)

include hP

theorem checkTag_every [Pattern.Engine] (s : Store) (ns : Text) {stored : List (Key × Datum)}
    (hd : d = .map stored) {tagged : Datum} (htagged : (Key.keyword tags, tagged) ∈ stored)
    {tag : Text} (htag : tagged.Holds (.symbol tag)) : (s.checkTag ns stored tag).Every P := by
  subst hd
  unfold checkTag
  split
  · exact Shape.check_every hP _ _ (.here _)
  split
  · exact Report.every_none
  split
  · exact hP _ _ (.value (.key htagged (.here _)) rfl (.value htagged htag))
  · split
    · exact Report.every_stopped _
    · exact Schema.validate_every hP _ _ _ _ (Schema.ofDatum_isBounded _) (.walked (.here _))
    · exact Report.every_none
  · exact Report.every_none

/-- What holds of every problem where it stands in a definition holds of all that the
checks of the definition report. -/
theorem checkBody_every [Pattern.Engine] (s : Store) (ns : Text) : (s.checkBody ns d).Every P := by
  unfold checkBody
  split
  · rename_i stored
    dsimp only
    split
    · exact Report.every_none
    rename_i htagged
    have hmem : (Key.keyword tags, Datum.field stored tags) ∈ stored :=
      Key.mem_of_lookup?_keyword (Datum.field?_of_field rfl fun h => htagged (h ▸ rfl))
    split
    · exact hP _ _ (.value (.key hmem (.here _)) rfl trivial)
    · rename_i names hnames
      refine Report.every_all (List.forall_mem_map.mpr fun tag htag => ?_)
      exact checkTag_every hP s ns rfl hmem (holds_of_symbolNames? hnames htag)
  · exact hP _ _ (.value (.here _) rfl (Or.inl ⟨_, rfl⟩))

end

theorem checkEntry_every [Pattern.Engine] (s : Store) {k : Key} {d : Datum} (h : (k, d) ∈ entries) :
    (s.checkEntry ns k d).Every (Issue.Raised ns entries) := by
  unfold checkEntry
  split
  · exact Report.every_none
  rename_i hdefinition
  split
  · exact problem_raised h rfl (Problem.isTypeName_key k)
  · rename_i name hname
    obtain rfl := Key.eq_symbol_of_symbol? hname
    rw [Bool.or_eq_true, not_or, Key.symbol_same_iff, Key.symbol_same_iff] at hdefinition
    refine List.forall_mem_map.mpr (checkBody_every ?_ s ns)
    intro p path hp i hi
    obtain ⟨message, hmessage, rfl⟩ := Report.mem_problem hi
    exact .inside h (Ne.symm hdefinition.1) (Ne.symm hdefinition.2) hp hmessage

theorem fetchImport_issues (t : FileTree) (load : Path → Store → Outcome) {name : Text}
    {s : Store} (h : (fetchImport t load name s).fault = none) :
    (fetchImport t load name s).store.issues = s.issues := by
  unfold fetchImport at h ⊢
  split at h
  · rfl
  · rfl
  · rw [Outcome.andThen_store (Outcome.andThen_fault_eq_none_iff.mp h).1]
    rfl

theorem loadImport_adds (t : FileTree) (load : Path → Store → Outcome) {listed : Datum}
    (hlisted : (Vocabulary.imports, listed) ∈ entries) {name : Text}
    (hname : listed.Holds (.symbol name)) {s : Store}
    (h : (loadImport t load ns name s).fault = none) :
    Adds (Issue.Raised ns entries) s (loadImport t load ns name s).store := by
  revert h
  unfold loadImport
  split
  · exact fun _ => adds_refl s
  · intro h
    rw [Outcome.andThen_fault_eq_none_iff] at h
    rw [Outcome.andThen_store h.1]
    have hfetch : Adds (Issue.Raised ns entries) s (fetchImport t load name s).store :=
      ⟨[], by simp [fetchImport_issues t load h.1]⟩
    refine hfetch.trans ?_
    unfold settleImport
    split
    · exact adds_refl _
    · refine adds_record (problem_raised hlisted rfl ?_) _
      exact Datum.Holds.value hlisted hname

/-- The imports of a submission add issues at the imports only. -/
theorem loadImports_adds (t : FileTree) (load : Path → Store → Outcome) {s : Store}
    (h : (loadImports t load ns ((Key.lookup? Vocabulary.imports entries).getD .nil) s).fault =
      none) :
    Adds (Issue.Raised ns entries) s
      (loadImports t load ns ((Key.lookup? Vocabulary.imports entries).getD .nil) s).store := by
  cases hlookup : Key.lookup? Vocabulary.imports entries with
  | none => exact adds_refl s
  | some listed =>
      have hlisted := Key.mem_of_lookup?_symbol hlookup
      rw [hlookup, Option.getD_some] at h
      rw [Option.getD_some]
      revert h
      unfold loadImports
      split
      · exact fun _ => adds_refl s
      split
      · intro _
        refine adds_record (problem_raised hlisted rfl ?_) s
        trivial
      · rename_i names hnames
        refine Outcome.each_relates adds_refl (fun _ _ _ => Adds.trans) ?_
        intro name hname _
        exact loadImport_adds t load hlisted (holds_of_symbolNames? hnames hname)

/-- A submission that is not stopped adds issues of the submitted map. -/
theorem submitWith_raises [Pattern.Engine] (t : FileTree) (load : Path → Store → Outcome)
    {s : Store} (hns : Vocabulary.declared? (.map entries) = some ns)
    (h : (submitWith t load (.map entries) s).fault = none) :
    Adds (Issue.Raised ns entries) s (submitWith t load (.map entries) s).store := by
  simp only [submitWith, hns] at h ⊢
  rw [Outcome.andThen_fault_eq_none_iff] at h
  rw [Outcome.andThen_store h.1]
  have hput : Adds (Issue.Raised ns entries) s (s.put ns entries) := ⟨[], by simp [put]⟩
  refine hput.trans ((loadImports_adds t load h.1).trans (adds_record ?_ _))
  refine Report.every_all (List.forall_mem_map.mpr fun e he => ?_)
  exact checkEntry_every _ he

/-- A submission that is not stopped adds issues that stand in the submitted map. -/
theorem submitWith_adds [Pattern.Engine] (t : FileTree) (load : Path → Store → Outcome) {s : Store}
    (hns : Vocabulary.declared? (.map entries) = some ns)
    (h : (submitWith t load (.map entries) s).fault = none) :
    Adds (Issue.IsRecorded ns entries) s (submitWith t load (.map entries) s).store := by
  obtain ⟨added, hadded, hraised⟩ := submitWith_raises t load hns h
  exact ⟨added, hadded, fun i hi => (hraised i hi).isRecorded⟩

end Store

end EdnLint
