import EdnLint.Proofs.Document.Decidable
import EdnLint.Proofs.Schema.Passing
import EdnLint.Proofs.Schema.Validation
import EdnLint.Store.Loading

/-!
# Annotations in the validation of maps

A map may hold annotations that its schema does not name. Validation goes through the
entries of a map one by one, so an entry more puts its own report in between those of the
entries around it (`Report.Inserts`) and changes nothing else, if its key is not required.

What an annotation has reported on it depends on the schema. It is never an unknown key,
in an open map or in a closed one. But a schema for values is asked about every entry that
has none of its own, annotations not excepted: `validate_annotation` says that this is
the one way in which an annotation is not passed over, and `submit_tags_reported` shows the
tags of a definition reported in it.
-/

namespace EdnLint

open Vocabulary

namespace Report

/-- One report is another with `own` put in at some place. -/
def Inserts (own plain whole : Report) : Prop :=
  ∃ head tail : Report, plain = head.andThen tail ∧ whole = head.andThen (own.andThen tail)

variable {own plain whole : Report}

theorem Inserts.eq_of_none (h : Inserts own plain whole) (hown : own = none) : whole = plain := by
  obtain ⟨head, tail, hplain, hwhole⟩ := h
  rw [hwhole, hplain, hown, none_andThen]

/-- A check that comes to an end shows whether something was put in. -/
theorem Inserts.eq_iff (h : Inserts own plain whole) (hfault : plain.fault = .none) :
    whole = plain ↔ own = none := by
  constructor
  · intro heq
    obtain ⟨⟨before, stop⟩, ⟨after, stop'⟩, rfl, rfl⟩ := h
    cases stop with
    | some fault => simp [andThen] at hfault
    | none =>
        rcases own with ⟨issues, _ | fault⟩
        · simpa [andThen, none] using heq
        · have hstopped := congrArg Report.fault heq
          rw [hfault] at hstopped
          simp [andThen] at hstopped
  · exact h.eq_of_none

end Report

namespace Key

theorem lookup?_append {α : Type} (k : Key) (entries entries' : List (Key × α)) :
    lookup? k (entries ++ entries') = (lookup? k entries).or (lookup? k entries') := by
  induction entries with
  | nil => rfl
  | cons e entries ih =>
      obtain ⟨l, a⟩ := e
      rw [List.cons_append, lookup?_cons, lookup?_cons, ih]
      split
      · rfl
      · rfl

/-- An entry under another key is not in the way. -/
theorem lookup?_insert {α : Type} {k l : Key} (h : k.same l = false) (a : α)
    (before after : List (Key × α)) :
    lookup? k (before ++ (l, a) :: after) = lookup? k (before ++ after) := by
  rw [lookup?_append, lookup?_append, lookup?_cons, h]
  rfl

end Key

namespace Vocabulary

theorem exists_keyword_of_isAnnotation {k : Key} (h : isAnnotation k = true) :
    ∃ name, k = .keyword name := by
  unfold isAnnotation at h
  split at h
  · rename_i name hname
    rw [← Key.isSome_keyword?_iff, hname]
    rfl
  · cases h

theorem isAnnotation_not_same {k : Key} {ks : List Key} (hk : isAnnotation k = true)
    (h : k.isIn ks = false) : ∀ l ∈ ks, l.same k = false := by
  intro l hl
  obtain ⟨name, rfl⟩ := exists_keyword_of_isAnnotation hk
  by_contra hsame
  rw [Bool.not_eq_false, Key.same_keyword_iff] at hsame
  rw [(Key.isIn_iff _ _).mpr ⟨l, hl, hsame ▸ Key.same_self _⟩] at h
  cases h

end Vocabulary

namespace Schema

variable {k : Key} {x : Datum} {before after : List (Key × Datum)} {path : List Key}

/-- An entry more makes no difference to the keys that are required if its own is not. -/
theorem requiredKeys_insert {required : List Key} (h : ∀ r ∈ required, r.same k = false) :
    requiredKeys required path (before ++ (k, x) :: after) =
      requiredKeys required path (before ++ after) := by
  unfold requiredKeys
  cases hnamed : named required with
  | error fault => rfl
  | ok shown =>
      dsimp only
      congr 1
      apply List.map_congr_left
      intro e he
      have hmem : e.2 ∈ required := mem_of_named hnamed e (List.mem_mergeSort.mp he)
      rw [Key.lookup?_insert (h e.2 hmem)]

/-- An annotation that has no schema of its own is held against the schema for values only. -/
theorem entryReport_annotation [Pattern.Engine] {keys : List (Key × Schema)}
    (hk : isAnnotation k = true) (hkeys : Key.lookup? k keys = none) (indexed : Bool)
    (values : Schema) (closed : Bool) :
    entryReport indexed path keys values closed k x = validate indexed path values x := by
  unfold entryReport
  rw [validateUnder_eq, hkeys]
  by_cases hvalues : values = .absent
  · simp [hvalues, hk, isPresent, Report.when, validate]
  · simp [isPresent_iff.mpr hvalues]

/-- In a map schema that does not name it, an annotation puts in what the schema for values
reports on it. -/
theorem inserts_annotation [Pattern.Engine] {required : List Key} {keys : List (Key × Schema)}
    (hk : isAnnotation k = true) (hkeys : Key.lookup? k keys = none)
    (hrequired : k.isIn required = false) (indexed : Bool) (values : Schema) (closed : Bool) :
    Report.Inserts (validate indexed (path ++ [k]) values x)
      (validate indexed path (.map required keys values closed) (.map (before ++ after)))
      (validate indexed path (.map required keys values closed)
        (.map (before ++ (k, x) :: after))) := by
  let entry (e : Key × Datum) := entryReport indexed (path ++ [e.1]) keys values closed e.1 e.2
  have hown : entry (k, x) = validate indexed (path ++ [k]) values x :=
    entryReport_annotation hk hkeys indexed values closed
  -- in front of the entry stand the report on the required keys and those on the entries before
  refine ⟨(requiredKeys required path (before ++ after)).andThen (Report.all (before.map entry)),
    Report.all (after.map entry), ?_, ?_⟩
  · rw [validate_map, List.map_append, Report.all_append, Report.andThen_assoc]
  · rw [validate_map, List.map_append, Report.all_append, List.map_cons, Report.all_cons,
      requiredKeys_insert (isAnnotation_not_same hk hrequired), Report.andThen_assoc, ← hown]

theorem ofField_eq_absent {schema : List (Key × Datum)} {name : Text}
    (h : ∀ s, Datum.field schema name ≠ .map s) : ofField name schema = .absent := by
  rw [ofField_eq]
  cases hfield : Datum.field? schema name with
  | none => rfl
  | some d =>
      have hd : Datum.field schema name = d := by rw [Datum.field, hfield, Option.getD_some]
      rw [hd] at h
      cases d with
      | map s => exact absurd rfl (h s)
      | _ => rfl

/-- An annotation has reported on it what the schema for values reports, and nothing if
there is none. Everything else is reported as it is without the annotation. -/
theorem validate_annotation [Pattern.Engine] {schema : List (Key × Datum)}
    (ht : SchemaType.ofDatum? (Datum.field schema type) = some .map) (hk : isAnnotation k = true)
    (hkeys : Key.lookup? k (rowsOf schema) = none)
    (hrequire : k.isIn (required (Datum.field schema require)) = false)
    (before after : List (Key × Datum)) (x : Datum) (indexed : Bool) (path : List Key) :
    let validated (entries : List (Key × Datum)) : Report :=
      validate indexed path (ofDatum (.map schema)) (.map entries)
    let own := validate indexed (path ++ [k]) (ofField values schema) x
    let plain := validated (before ++ after)
    let annotated := validated (before ++ (k, x) :: after)
    Report.Inserts own plain annotated ∧
      ((∀ s, Datum.field schema values ≠ .map s) → annotated = plain) ∧
      (plain.fault = none → (annotated = plain ↔ own = .none)) := by
  intro validated own plain annotated
  have htable : Key.lookup? k (tableField schema) = none := by
    rw [tableField_eq, lookup?_rows, hkeys, Option.map_none]
  have hschema : ofDatum (.map schema) = .map (required (Datum.field schema require))
      (tableField schema) (ofField values schema) (isClosed schema) := by
    simp only [ofDatum, ht]
  have hinserts : Report.Inserts own plain annotated := by
    simp only [plain, annotated, validated, hschema]
    exact inserts_annotation hk htable hrequire indexed (ofField values schema) (isClosed schema)
  refine ⟨hinserts, ?_, hinserts.eq_iff⟩
  intro hvalues
  apply hinserts.eq_of_none
  have hown : own = validate indexed (path ++ [k]) .absent x :=
    congrArg (fun s => validate indexed (path ++ [k]) s x) (ofField_eq_absent hvalues)
  rw [hown]
  rfl

/-- Tags in front of a number that is not a string, in a closed map without the key that it
needs: two things are reported, with or without the tags. -/
theorem validate_annotation_tags :
    let text : Datum := .map [(.keyword type, .atom (.symbol "zen/string"))]
    let schema : List (Key × Datum) := [(.keyword type, .atom (.symbol "zen/map")),
      (.keyword require, .set [.keyword "b"]), (.keyword keys, .map [(.keyword "a", text)])]
    let entries : List (Key × Datum) := [(.keyword "a", .atom (.number (.int 5)))]
    let validated (entries : List (Key × Datum)) : Report :=
      validate true [] (ofDatum (.map schema)) (.map entries)
    (validated entries).issues.map Issue.message =
        [(":b is required" : Text), "Expected type of 'string, got 'integer"] ∧
      validated ((.keyword tags, .set [.symbol "s"]) :: entries) = validated entries := by
  intro text schema entries validated
  constructor
  · decide +kernel
  · have htype : SchemaType.ofDatum? (Datum.field schema type) = some .map := by rfl
    have hk : isAnnotation (.keyword tags) = true := by decide +kernel
    have hkeys : Key.lookup? (.keyword tags) (rowsOf schema) = none := by rfl
    have hrequire : (Key.keyword tags).isIn (required (Datum.field schema require)) = false := by
      decide +kernel
    have hannotation := validate_annotation htype hk hkeys hrequire [] entries
      (.set [.symbol "s"]) true []
    apply hannotation.2.1
    intro s hs
    cases hs

end Schema

/-- The definition has a string under its key, as its schema asks of all values, and alone
it would pass. The tags that make it subject to the schema are reported for not being a
string. -/
theorem Store.submit_tags_reported :
    let text : Text := "\x7bns a s \x7b:zen/tags #\x7bzen/schema\x7d :type zen/map" ++
      " :values \x7b:type zen/string\x7d\x7d d \x7b:zen/tags #\x7bs\x7d :k \"v\"\x7d\x7d"
    let t : FileTree := ⟨⟨.single, []⟩, [], []⟩
    let schema : Datum := .map [(.keyword tags, .set [.symbol "zen/schema"]),
      (.keyword type, .atom (.symbol "zen/map")),
      (.keyword values, .map [(.keyword type, .atom (.symbol "zen/string"))])]
    let entries : List (Key × Datum) := [(.keyword "k", .atom (.string "v"))]
    let d : Datum := .map [(.symbol "ns", .atom (.symbol "a")), (.symbol "s", schema),
      (.symbol "d", .map ((.keyword tags, .set [.symbol "s"]) :: entries))]
    readDatum text = .ok d ∧ Shape.check [] schema = .none ∧
      ((Schema.ofDatum schema).validate true [] (.map entries)).issues.map Issue.message = [] ∧
      ((Store.empty []).submit t d).store.issues.map (fun i => (i.message, i.path, i.resource)) =
        [(("Expected type of 'string, got 'set" : Text), [Key.keyword tags],
          some ("a/d" : Text))] := by
  intro text t schema entries d
  exact ⟨by decide +kernel, by rfl, by decide +kernel, by decide +kernel⟩

end EdnLint
