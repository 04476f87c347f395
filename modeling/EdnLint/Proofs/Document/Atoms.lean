import EdnLint.Proofs.Document.Descent
import EdnLint.Proofs.Document.Parts

/-!
# The atoms of a document

An atom that a datum holds, however deep, has been written somewhere: the node that says
the datum has a scalar with the atom inside (`Node.Has`). In a document that reads, a part
of the text derives the scalar, and if the atom is a keyword or a symbol, that part is a
single token. So there is no terminator in a name, and no space in particular.
-/

namespace EdnLint

open Grammar

namespace Datum

/-- The atom is somewhere in the datum. -/
inductive Holds (a : Atom) : Datum → Prop
  | atom : Holds a (.atom a)
  | item {items : List Datum} {d : Datum} : d ∈ items → Holds a d → Holds a (.vector items)
  | member {items : List Key} {k : Key} : k ∈ items → Holds a (.ofKey k) → Holds a (.set items)
  | key {entries : List (Key × Datum)} {k : Key} {d : Datum} :
      (k, d) ∈ entries → Holds a (.ofKey k) → Holds a (.map entries)
  | value {entries : List (Key × Datum)} {k : Key} {d : Datum} :
      (k, d) ∈ entries → Holds a d → Holds a (.map entries)

/-- A value that a path leads to holds nothing else than the datum. -/
theorem Walks.holds {d v : Datum} {path : List Key} (hw : d.Walks path v) {a : Atom}
    (h : v.Holds a) : d.Holds a := by
  induction hw with
  | here d => exact h
  | key hmem _ ih => exact .value hmem (ih h)
  | index hi _ ih => exact .item (List.mem_of_getElem? hi) (ih h)

end Datum

namespace Node

/-- The node is a scalar of the atom, or has one inside. -/
def Has (n : Node) (a : Atom) : Prop := ∃ m : Node, (m = n ∨ m.Inside n) ∧ m.shape = .scalar a

theorem has_of_mem {n m : Node} {a : Atom} (hm : m ∈ n.forms) (h : m.Has a) : n.Has a := by
  rcases h with ⟨k, hk | hk, hshape⟩
  · rw [hk] at hshape
    exact ⟨m, Or.inr (.form hm), hshape⟩
  · exact ⟨k, Or.inr (.deeper hm hk), hshape⟩

variable {a : Atom}

theorem has_of_holds_toKey {n : Node} (h : (Datum.ofKey n.toKey).Holds a) : n.Has a := by
  induction n using Node.induction with
  | mk shape start stop forms ih =>
      have hform : ∀ m ∈ forms, (Datum.ofKey m.toKey).Holds a →
          (mk shape start stop forms).Has a := fun m hm hholds => has_of_mem hm (ih m hm hholds)
      have htuple : (Datum.ofKey (.tuple (toKeys forms))).Holds a →
          (mk shape start stop forms).Has a := by
        intro h
        cases h with
        | item hd hholds =>
            rcases Datum.mem_ofKeys_iff.mp hd with ⟨k, hk, rfl⟩
            rw [toKeys_eq_map] at hk
            rcases List.mem_map.mp hk with ⟨m, hm, rfl⟩
            exact hform m hm hholds
      cases shape with
      | scalar value =>
          cases h
          exact ⟨_, Or.inl rfl, rfl⟩
      | document => exact htuple h
      | vector => exact htuple h
      | list => exact htuple h
      | set =>
          cases h with
          | member hk hholds =>
              rcases exists_of_mem_distinct hk with ⟨m, hm, rfl⟩
              exact hform m hm hholds
      | map =>
          cases h with
          | member hk hholds =>
              have hk := (Key.mem_distinctFrom hk).1
              rw [entryKeys_eq_map] at hk
              rcases List.mem_map.mp hk with ⟨e, he, rfl⟩
              rcases mem_entries he with ⟨hvalue, key, hkey, heq⟩
              -- an entry of a map is the sequence of its key and its value
              cases hholds with
              | item hd hholds =>
                  rcases Datum.mem_ofKeys_iff.mp hd with ⟨k, hk, rfl⟩
                  simp only [List.mem_cons, List.not_mem_nil, or_false] at hk
                  rcases hk with rfl | rfl
                  · exact hform key hkey (heq ▸ hholds)
                  · exact hform e.2 hvalue hholds
      | _ =>
          rw [toKey_wrapper start stop forms rfl] at h
          rcases List.eq_nil_or_concat forms with rfl | ⟨before, last, rfl⟩
          · exact htuple h
          · rw [List.concat_eq_append, lastKey_append] at h
            exact hform last (by simp) h

/-- What a node says holds the atoms that are written in the node, and nil where there is
nothing. -/
theorem has_of_holds_toDatum {n : Node} (ha : a ≠ .nil) (h : n.toDatum.Holds a) : n.Has a := by
  induction n using Node.induction with
  | mk shape start stop forms ih =>
      have hform : ∀ m ∈ forms, m.toDatum.Holds a → (mk shape start stop forms).Has a :=
        fun m hm hholds => has_of_mem hm (ih m hm hholds)
      have hkey : ∀ m ∈ forms, (Datum.ofKey m.toKey).Holds a →
          (mk shape start stop forms).Has a :=
        fun m hm hholds => has_of_mem hm (has_of_holds_toKey hholds)
      have hvector : (Datum.vector (toData forms)).Holds a →
          (mk shape start stop forms).Has a := by
        intro h
        cases h with
        | item hd hholds =>
            rw [toData_eq_map] at hd
            rcases List.mem_map.mp hd with ⟨m, hm, rfl⟩
            exact hform m hm hholds
      have hnil : Datum.nil.Holds a → (mk shape start stop forms).Has a := by
        intro h
        cases h
        exact absurd rfl ha
      cases shape with
      | scalar value =>
          cases h
          exact ⟨_, Or.inl rfl, rfl⟩
      | document =>
          cases forms with
          | nil => exact hnil h
          | cons m forms => exact hform m List.mem_cons_self h
      | vector => exact hvector h
      | list => exact hvector h
      | set =>
          cases h with
          | member hk hholds =>
              rcases exists_of_mem_distinct hk with ⟨m, hm, rfl⟩
              exact hkey m hm hholds
      | map =>
          cases h with
          | key hmem hholds =>
              rcases exists_of_mem_distinctEntries hmem with ⟨-, m, hm, rfl⟩
              exact hkey m hm hholds
          | value hmem hholds =>
              rcases exists_of_mem_distinctEntries hmem with ⟨⟨n, hn, rfl⟩, -⟩
              exact hform n hn hholds
      | _ =>
          rw [toDatum_wrapper start stop forms rfl] at h
          rcases List.eq_nil_or_concat forms with rfl | ⟨before, last, rfl⟩
          · exact hnil h
          · rw [List.concat_eq_append, lastDatum_append] at h
            exact hform last (by simp) h

end Node

/-- The name of a keyword or a symbol. -/
def Atom.name? : Atom → Option Text
  | .keyword name | .symbol name => some name
  | _ => none

/-- A name is a part of the token that writes it. -/
theorem Scalar.name_subset_token {token name : Text} {a : Atom} (h : ofToken token = .ok a)
    (hname : a.name? = some name) : name ⊆ token := by
  rw [ofToken] at h
  repeat' split at h
  case h_1 result _ =>
      cases result with
      | error e => cases h
      | ok n =>
          cases h
          cases hname
  all_goals cases h
  all_goals cases hname
  · exact List.tail_subset token
  · exact List.Subset.refl token

theorem Scalar.ofSymbolic?_name? {token : Text} {a : Atom} (h : ofSymbolic? token = some a) :
    a.name? = none := by
  rw [ofSymbolic?] at h
  repeat' split at h
  all_goals cases h
  all_goals rfl

/-- The keywords and symbols that a form writes have no terminator in their names. -/
theorem Grammar.Derives.isToken_name {p : Position} {s rest : Text} {n : Node}
    (h : Derives .form p s rest [n]) {a : Atom} (ha : n.shape = .scalar a) {name : Text}
    (hname : a.name? = some name) : IsToken name := by
  cases h with
  | collection hb _ => cases hb <;> cases ha
  | string _ =>
      cases ha
      cases hname
  | character _ _ _ =>
      cases ha
      cases hname
  | symbolic _ _ hsymbolic =>
      cases ha
      rw [Scalar.ofSymbolic?_name? hsymbolic] at hname
      cases hname
  | atom hbare _ htoken =>
      cases ha
      exact fun c hc => hbare.1 c (Scalar.name_subset_token htoken hname hc)
  | _ => cases ha

/-- In a document that reads there is no terminator in the name of a keyword or a symbol. -/
theorem isToken_name_of_parse {text : Text} {tree : Node} (hp : parse text = .ok tree) {a : Atom}
    (h : tree.toDatum.Holds a) {name : Text} (hname : a.name? = some name) : IsToken name := by
  have ha : a ≠ .nil := by
    rintro rfl
    cases hname
  rcases Node.has_of_holds_toDatum ha h with ⟨m, rfl | hinside, hshape⟩
  · have hdocument := (parse_form (Q := fun _ => True) (fun _ _ => trivial) hp).1
    rw [hdocument] at hshape
    cases hshape
  · rcases occurs_of_parse hp hinside with ⟨u, v, w, -, hm⟩
    exact hm.isToken_name hshape hname

end EdnLint
