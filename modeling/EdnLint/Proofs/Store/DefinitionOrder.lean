import EdnLint.Proofs.Document.Keys
import EdnLint.Proofs.Lint.Resources
import EdnLint.Proofs.Store.Stopping

/-!
# The order of definitions

A namespace is stored before its entries are checked, and a check changes nothing that
another check looks at. So the report on an entry depends on the namespace as a whole, and
what the namespace holds under a key does not depend on the order of the entries, since no
key occurs twice (`Key.lookup?_perm`). In another order the same reports are made one after
the other in that order. All reports on a definition come from one entry, which is why they
stay in their order.
-/

namespace EdnLint

open Vocabulary

namespace Key

/-- Where no key occurs twice, the order of the entries does not matter to a lookup. -/
theorem lookup?_perm {α : Type} {k : Key} (hk : k.WellFormed) {entries entries' : List (Key × α)}
    (hpairwise : entries.Pairwise fun e f => f.1.same e.1 = false)
    (hpairwise' : entries'.Pairwise fun e f => f.1.same e.1 = false)
    (hperm : entries.Perm entries') : lookup? k entries = lookup? k entries' := by
  ext a
  constructor
  · intro h
    obtain ⟨l, hkl, hmem⟩ := mem_of_lookup? h
    exact lookup?_of_mem hk hpairwise' (hperm.mem_iff.mp hmem) hkl
  · intro h
    obtain ⟨l, hkl, hmem⟩ := mem_of_lookup? h
    exact lookup?_of_mem hk hpairwise (hperm.mem_iff.mpr hmem) hkl

end Key

/-- No key occurs twice in a map that is read. -/
theorem pairwise_of_readDatum {t : Text} {entries : List (Key × Datum)}
    (h : readDatum t = .ok (.map entries)) :
    entries.Pairwise fun e f => f.1.same e.1 = false := by
  obtain ⟨tree, hp, hd⟩ := readDatum_eq_ok_iff.mp h
  obtain ⟨top, -, hform, htop⟩ := parse_topForm (Q := fun _ => True) (fun _ _ => trivial) hp
    (forms_ne_nil_of_parse hp hd)
  obtain ⟨-, rfl⟩ := hform.toDatum_eq_map (htop.symm.trans hd)
  exact Key.pairwise_distinctEntriesFrom [] _

/-- A list of lists of which at most one is not empty can be joined in any order. -/
theorem flatMap_eq_of_perm {α β : Type} {f : α → List β} {as bs : List α} (h : as.Perm bs)
    (hone : as.Pairwise fun a b => f a = [] ∨ f b = []) : as.flatMap f = bs.flatMap f := by
  induction h with
  | nil => rfl
  | cons a _ ih =>
      rw [List.pairwise_cons] at hone
      rw [List.flatMap_cons, List.flatMap_cons, ih hone.2]
  | swap a b as =>
      rw [List.pairwise_cons] at hone
      rcases hone.1 a List.mem_cons_self with hb | ha
      · simp [hb]
      · simp [ha]
  | trans h _ ih ih' =>
      have hsymm : ∀ a b, (f a = [] ∨ f b = []) → (f b = [] ∨ f a = []) := fun _ _ => Or.symm
      exact (ih hone).trans (ih' ((h.pairwise_iff (hsymm _ _)).mp hone))

namespace Issue

/-- The issues with a resource, in their order. -/
def ofResource (resource : Text) (issues : List Issue) : List Issue :=
  issues.filter fun i => i.resource = some resource

theorem mem_ofResource {resource : Text} {issues : List Issue} {i : Issue} :
    i ∈ ofResource resource issues ↔ i ∈ issues ∧ i.resource = some resource := by
  simp [ofResource]

theorem ofResource_append (resource : Text) (issues issues' : List Issue) :
    ofResource resource (issues ++ issues') =
      ofResource resource issues ++ ofResource resource issues' :=
  List.filter_append issues issues'

theorem ofResource_flatMap {α : Type} (resource : Text) (f : α → List Issue) (as : List α) :
    ofResource resource (as.flatMap f) = as.flatMap fun a => ofResource resource (f a) :=
  List.filter_flatMap

end Issue

namespace Store

variable {s s' : Store} {t : FileTree} {ns : Text} {entries entries' : List (Key × Datum)}

/-- The check of an entry reads the store only where it looks definitions up. -/
theorem checkEntry_congr [Pattern.Engine] (h : ∀ tag, s.definition? ns tag = s'.definition? ns tag)
    (k : Key) (d : Datum) : s.checkEntry ns k d = s'.checkEntry ns k d := by
  have htag : s.checkTag ns = s'.checkTag ns := by
    funext body tag
    unfold checkTag
    rw [h]
  have hbody : s.checkBody ns d = s'.checkBody ns d := by
    unfold checkBody
    rw [htag]
  unfold checkEntry
  rw [hbody]

/-- An issue with a definition as its resource is found in the entry of the definition. -/
theorem eq_symbol_of_mem_checkEntry [Pattern.Engine] {k : Key} {d : Datum} {name : Text} {i : Issue}
    (h : i ∈ (s.checkEntry ns k d).issues) (hi : i.resource = some (Name.qualify ns name)) :
    k = .symbol name := by
  cases hk : k.symbol? with
  | none =>
      rw [checkEntry] at h
      split at h
      · cases h
      · rw [hk] at h
        obtain ⟨_, -, rfl⟩ := Report.mem_problem h
        cases hi
  | some other =>
      obtain rfl := Key.eq_symbol_of_symbol? hk
      rw [resource_of_mem_checkEntry h, Option.some_inj] at hi
      have hname : other = name := by simpa [Name.qualify] using hi
      rw [hname]

section

variable (hpairwise : entries.Pairwise fun e f => f.1.same e.1 = false)
  (hpairwise' : entries'.Pairwise fun e f => f.1.same e.1 = false) (hperm : entries.Perm entries')

include hpairwise hpairwise' hperm

theorem lookup?_symbol_perm (name : Text) :
    Key.lookup? (.symbol name) entries = Key.lookup? (.symbol name) entries' := by
  have hname : (Key.symbol name).WellFormed := trivial
  exact Key.lookup?_perm hname hpairwise hpairwise' hperm

theorem definition?_put_perm (s : Store) (ns tag : Text) :
    (s.put ns entries).definition? ns tag = (s.put ns entries').definition? ns tag := by
  unfold definition?
  by_cases hself : (Name.qualifier? tag).getD ns = ns
  · simp [hself, namespace?, put, lookup?_symbol_perm hpairwise hpairwise' hperm]
  · simp [namespace?, put, Members.get?_put_of_ne hself]

/-- Submitting the entries in another order makes the same reports in that order. -/
theorem exists_submit_perm [Pattern.Engine] (hns : declared? (.map entries) = some ns)
    (himports : s.ImportsStored (.map entries)) :
    ∃ added, s.submit t (.map entries) =
        .record { s.put ns entries with issues := s.issues ++ added }
          (Report.all (entries.map fun e => (s.put ns entries).checkEntry ns e.1 e.2)) ∧
      s.submit t (.map entries') =
        .record { s.put ns entries' with issues := s.issues ++ added }
          (Report.all (entries'.map fun e => (s.put ns entries).checkEntry ns e.1 e.2)) := by
  have hlookup := lookup?_symbol_perm hpairwise hpairwise' hperm
  have hlisted : Key.lookup? imports entries' = Key.lookup? imports entries := (hlookup _).symm
  have hns' : declared? (.map entries') = some ns := by
    rw [← hns]
    exact congrArg (Option.bind · Datum.symbol?) (hlookup _).symm
  have himports' : s.ImportsStored (.map entries') := by
    rintro ns' _ ⟨⟩ hother name hname
    obtain rfl := Option.some_inj.mp (hns'.symm.trans hother)
    rw [importNames, hlisted] at hname
    exact himports ns entries rfl hns name hname
  have hcheck : ∀ e : Key × Datum, (s.put ns entries').checkEntry ns e.1 e.2 =
      (s.put ns entries).checkEntry ns e.1 e.2 := by
    intro e
    apply checkEntry_congr
    intro tag
    exact (definition?_put_perm hpairwise hpairwise' hperm s ns tag).symm
  obtain ⟨added, hsubmit⟩ := exists_submit_eq_of_imports entries
  refine ⟨added, hsubmit t s ns entries rfl himports hns, ?_⟩
  rw [hsubmit t s ns entries' hlisted himports' hns', List.map_congr_left fun e _ => hcheck e]

end

/-- Of two entries with different keys, one has no issue about the definition. -/
theorem pairwise_ofResource [Pattern.Engine] (s : Store) (ns name : Text)
    (hpairwise : entries.Pairwise fun e f => f.1.same e.1 = false) :
    entries.Pairwise fun e f =>
      Issue.ofResource (Name.qualify ns name) (s.checkEntry ns e.1 e.2).issues = [] ∨
        Issue.ofResource (Name.qualify ns name) (s.checkEntry ns f.1 f.2).issues = [] := by
  apply hpairwise.imp
  intro e f hdifferent
  by_contra hboth
  rw [not_or] at hboth
  obtain ⟨i, hi⟩ := List.exists_mem_of_ne_nil _ hboth.1
  obtain ⟨j, hj⟩ := List.exists_mem_of_ne_nil _ hboth.2
  rw [Issue.mem_ofResource] at hi hj
  rw [eq_symbol_of_mem_checkEntry hi.1 hi.2, eq_symbol_of_mem_checkEntry hj.1 hj.2,
    Key.same_self] at hdifferent
  cases hdifferent

/-- The order of the definitions does not matter. Let two maps that are read have the same
entries in different order, with the imports stored. Then both submissions are stopped or
none is. If none is, they record the same issues up to their order, and the issues about
each definition in the same order. -/
theorem submit_issues_perm [Pattern.Engine] (t : FileTree) (s : Store) {text text' : Text}
    (hread : readDatum text = .ok (.map entries)) (hread' : readDatum text' = .ok (.map entries'))
    (hperm : entries.Perm entries') (hns : declared? (.map entries) = some ns)
    (himports : s.ImportsStored (.map entries)) :
    ((s.submit t (.map entries)).fault = none ↔ (s.submit t (.map entries')).fault = none) ∧
    ((s.submit t (.map entries)).fault = none →
      (s.submit t (.map entries)).store.issues.Perm (s.submit t (.map entries')).store.issues ∧
      ∀ name, Issue.ofResource (Name.qualify ns name) (s.submit t (.map entries)).store.issues =
        Issue.ofResource (Name.qualify ns name) (s.submit t (.map entries')).store.issues) := by
  have hpairwise := pairwise_of_readDatum hread
  obtain ⟨added, hsubmit, hsubmit'⟩ := exists_submit_perm (t := t) hpairwise
    (pairwise_of_readDatum hread') hperm hns himports
  rw [hsubmit, hsubmit']
  have hone := fun name => pairwise_ofResource (s.put ns entries) ns name hpairwise
  generalize (s.put ns entries).checkEntry ns = check at hone ⊢
  have hstopped : (Report.all (entries.map fun e => check e.1 e.2)).IsStopped ↔
      (Report.all (entries'.map fun e => check e.1 e.2)).IsStopped := by
    rw [Report.isStopped_all_map_iff, Report.isStopped_all_map_iff]
    simp only [hperm.mem_iff]
  refine ⟨not_iff_not.mp hstopped, fun hfault => ?_⟩
  have hissues := issues_all (not_not.mpr hfault)
  have hissues' := issues_all (mt hstopped.mpr (not_not.mpr hfault))
  simp only [Outcome.record, hissues, hissues', List.flatMap_map]
  refine ⟨List.Perm.append_left _ (hperm.flatMap_right _), fun name => ?_⟩
  simp only [Issue.ofResource_append, Issue.ofResource_flatMap]
  rw [flatMap_eq_of_perm hperm (hone name)]

/-- A definition in front of the schema that it is tagged with, and behind it. -/
theorem submit_issues_perm_forward :
    let schema : Key × Datum := (.symbol "s", .map [(.keyword tags, .set [.symbol schemaTag]),
      (.keyword type, .atom (.symbol "zen/map"))])
    let tagged : Key × Datum := (.symbol "d", .map [(.keyword tags, .set [.symbol "s"]),
      (.keyword "k", .atom (.number (.int 1)))])
    let number : Key × Datum := (.symbol "e", .atom (.number (.int 3)))
    let name : Key × Datum := (Vocabulary.ns, .atom (.symbol "a"))
    let issues (entries : List (Key × Datum)) : List Issue :=
      ((Store.empty []).submit ⟨⟨.single, ["ws"]⟩, [], []⟩ (.map entries)).store.issues
    (issues [name, tagged, schema, number]).length = 2 ∧
      (issues [name, tagged, schema, number]).Perm (issues [number, schema, name, tagged]) ∧
      Issue.ofResource "a/d" (issues [name, tagged, schema, number]) =
        Issue.ofResource "a/d" (issues [number, schema, name, tagged]) := by
  intro schema tagged number name issues
  let text : Text := "{ns a d {:zen/tags #{s} :k 1} s {:zen/tags #{zen/schema} :type zen/map} e 3}"
  let text' : Text := "{e 3 s {:zen/tags #{zen/schema} :type zen/map} ns a d {:zen/tags #{s} :k 1}}"
  have hread : readDatum text = .ok (.map [name, tagged, schema, number]) := by decide +kernel
  have hread' : readDatum text' = .ok (.map [number, schema, name, tagged]) := by decide +kernel
  have hperm : [name, tagged, schema, number].Perm [number, schema, name, tagged] :=
    (List.reverse_perm _).symm.trans (.cons _ (.cons _ (.swap _ _ _)))
  have himports : (Store.empty []).ImportsStored (.map [name, tagged, schema, number]) := by
    rintro ns _ ⟨⟩ - other hother
    have hnames : importNames [name, tagged, schema, number] = [] := by decide +kernel
    rw [hnames] at hother
    cases hother
  have hns : declared? (.map [name, tagged, schema, number]) = some ("a" : Text) := by
    decide +kernel
  have hissues := submit_issues_perm ⟨⟨.single, ["ws"]⟩, [], []⟩ (Store.empty []) hread hread' hperm
    hns himports
  have hfault : ((Store.empty []).submit ⟨⟨.single, ["ws"]⟩, [], []⟩
      (.map [name, tagged, schema, number])).fault = none := by decide +kernel
  exact ⟨by decide +kernel, (hissues.2 hfault).1, (hissues.2 hfault).2 "d"⟩

end Store

end EdnLint
