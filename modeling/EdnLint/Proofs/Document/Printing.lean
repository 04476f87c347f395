import EdnLint.Proofs.Document.Descent
import EdnLint.Proofs.Document.ScalarText

/-!
# Data as they are written

A datum is written with its scalars as `Scalar.Writes` says, its items between brackets
and blanks between neighbours. A map is written as its keys and values in turn, and what
is repeated in a set or among the keys of a map could not be read back, so these are all
different. `WritesRow` is about a row of data, since a collection is written as one, and
a datum is a row of itself.

A row is derived by the grammar whatever follows it, as long as a token may end there
(`WritesRow.derives`), and the nodes of the derivation say the data of the row. So a
written datum reads as itself (`readDatum_of_writes`).
-/

namespace EdnLint

open Grammar

theorem Grammar.endsToken_cons (c : CodePoint) (hc : c.isTerminator = true) (rest : Text) :
    EndsToken (c :: rest) := by
  rintro _ ⟨⟩
  exact hc

namespace Grammar.Derives

variable {p : Position} {s u rest : Text} {ms ns : List Node} {n : Node}

theorem sequence_append (h : Derives .sequence p s (u ++ rest) ms)
    (h' : Derives .sequence (p.after s) u rest ns) :
    Derives .sequence p (s ++ u) rest (ms ++ ns) := by
  generalize hk : Category.sequence = k at h
  generalize hfollowing : u ++ rest = following at h
  induction h with
  | nil => exact h'
  | @cons k p s v _ ms ns hpiece hms _ _ ih =>
      subst hfollowing
      rw [Position.after_append] at h'
      rw [List.append_assoc, List.append_assoc]
      rw [← List.append_assoc] at hms
      exact .cons hpiece hms (ih h' rfl rfl)
  | _ => cases hk

theorem sequence_blanks (hs : ∀ c ∈ s, c.isBlank = true) : Derives .sequence p s rest [] := by
  induction s generalizing p with
  | nil => exact .nil
  | cons c s ih =>
      rw [List.forall_mem_cons] at hs
      exact .cons rfl (.white hs.1) (ih hs.2)

theorem sequence_form (h : Derives .form p s rest [n]) : Derives .sequence p s rest [n] := by
  have hcons := Derives.cons (u := []) rfl h .nil
  rwa [List.append_nil] at hcons

end Grammar.Derives

/-- How data are written one after the other. -/
inductive WritesRow : List Datum → Text → Prop
  | nil : WritesRow [] []
  | atom {a : Atom} {s : Text} : Scalar.Writes a s → WritesRow [.atom a] s
  | vector {items : List Datum} {s : Text} : WritesRow items s →
      WritesRow [.vector items] ('[' :: (s ++ [CodePoint.ofChar ']']))
  | set {items : List Atom} {s : Text} : items.Pairwise (fun a b => a.same b = false) →
      WritesRow (items.map .atom) s →
      WritesRow [.set (items.map .atom)] ('#' :: '{' :: (s ++ [CodePoint.ofChar '}']))
  | map {entries : List (Atom × Datum)} {s : Text} :
      entries.Pairwise (fun e f => e.1.same f.1 = false) →
      WritesRow (entries.flatMap fun e => [.atom e.1, e.2]) s →
      WritesRow [.map (entries.map fun e => (.atom e.1, e.2))]
        ('{' :: (s ++ [CodePoint.ofChar '}']))
  | cons {d : Datum} {ds : List Datum} {s blanks u : Text} : WritesRow [d] s →
      blanks ≠ [] → (∀ c ∈ blanks, c.isBlank = true) → ds ≠ [] → WritesRow ds u →
      WritesRow (d :: ds) (s ++ (blanks ++ u))

/-- How a datum is written. -/
def Datum.Writes (d : Datum) (s : Text) : Prop := WritesRow [d] s

namespace Key

theorem distinctFrom_eq_self {seen ks : List Key} (hseen : ∀ k ∈ ks, k.isIn seen = false)
    (h : ks.Pairwise fun k l => l.same k = false) : distinctFrom seen ks = ks := by
  induction ks generalizing seen with
  | nil => rfl
  | cons k ks ih =>
      rw [List.forall_mem_cons] at hseen
      rw [List.pairwise_cons] at h
      rw [distinctFrom, if_neg (by simp [hseen.1]), ih _ h.2]
      intro l hl
      have hl' := hseen.2 l hl
      simp only [isIn, List.any_append, Bool.or_eq_false_iff] at hl' ⊢
      exact ⟨hl', by simpa using h.1 l hl⟩

theorem distinctEntriesFrom_eq_self {α : Type} {seen : List Key} {entries : List (Key × α)}
    (hseen : ∀ e ∈ entries, e.1.isIn seen = false)
    (h : entries.Pairwise fun e f => f.1.same e.1 = false) :
    distinctEntriesFrom seen entries = entries := by
  induction entries generalizing seen with
  | nil => rfl
  | cons e entries ih =>
      obtain ⟨k, a⟩ := e
      rw [List.forall_mem_cons] at hseen
      rw [List.pairwise_cons] at h
      rw [distinctEntriesFrom, if_neg (by simp [hseen.1]), ih _ h.2]
      intro e he
      have he' := hseen.2 e he
      simp only [isIn, List.any_append, Bool.or_eq_false_iff] at he' ⊢
      exact ⟨he', by simpa using h.1 e he⟩

end Key

/-- The node means the datum, and an atom also as a key. -/
def Node.Says (n : Node) (d : Datum) : Prop :=
  n.toDatum = d ∧ ∀ a, d = .atom a → n.toKey = .atom a

namespace Node

variable {ns : List Node}

theorem says_one {n : Node} {d : Datum} (hn : n.toDatum = d)
    (hkey : ∀ a, d = .atom a → n.toKey = .atom a) : List.Forall₂ Says [n] [d] :=
  .cons ⟨hn, hkey⟩ .nil

theorem map_toDatum_of_says {ds : List Datum} (h : List.Forall₂ Says ns ds) :
    ns.map toDatum = ds := by
  induction h with
  | nil => rfl
  | cons hn _ ih => rw [List.map_cons, ih, hn.1]

theorem map_toKey_of_says {items : List Atom} (h : List.Forall₂ Says ns (items.map .atom)) :
    ns.map toKey = items.map .atom := by
  induction items generalizing ns with
  | nil =>
      cases h
      rfl
  | cons a items ih =>
      cases h with
      | cons hn hns => rw [List.map_cons, List.map_cons, ih hns, hn.2 a rfl]

theorem entryData_of_says {entries : List (Atom × Datum)}
    (h : List.Forall₂ Says ns (entries.flatMap fun e => [.atom e.1, e.2])) :
    entryData ns = entries.map fun e => (.atom e.1, e.2) := by
  induction entries generalizing ns with
  | nil =>
      cases h
      rfl
  | cons e entries ih =>
      cases h with
      | cons hk hns =>
          cases hns with
          | cons hn hns => rw [entryData, ih hns, hk.2 e.1 rfl, hn.1, List.map_cons]

end Node

theorem Atom.same_comm (a b : Atom) : a.same b = b.same a := by
  rw [Bool.eq_iff_iff, same_iff, same_iff, eq_comm]

theorem Key.distinct_atoms {items : List Atom} (h : items.Pairwise fun a b => a.same b = false) :
    distinct (items.map .atom) = items.map .atom := by
  refine distinctFrom_eq_self (fun _ _ => rfl) (List.pairwise_map.mpr (h.imp fun hab => ?_))
  exact (Atom.same_comm _ _).trans hab

theorem Key.distinctEntries_atoms {entries : List (Atom × Datum)}
    (h : entries.Pairwise fun e f => e.1.same f.1 = false) :
    distinctEntries (entries.map fun e => (Key.atom e.1, e.2)) =
      entries.map fun e => (.atom e.1, e.2) := by
  refine distinctEntriesFrom_eq_self (fun _ _ => rfl) (List.pairwise_map.mpr (h.imp fun hef => ?_))
  exact (Atom.same_comm _ _).trans hef

namespace WritesRow

/-- What is written is derived, and the nodes say what is written. -/
theorem derives {ds : List Datum} {s : Text} (h : WritesRow ds s) (p : Position) {rest : Text}
    (hrest : EndsToken rest) :
    ∃ ns, Derives .sequence p s rest ns ∧ List.Forall₂ Node.Says ns ds := by
  induction h generalizing p rest with
  | nil => exact ⟨[], .nil, .nil⟩
  | @atom a s ha =>
      refine ⟨_, (ha.derives p hrest).sequence_form, Node.says_one rfl ?_⟩
      rintro _ ⟨⟩
      rfl
  | @vector items s _ ih =>
      obtain ⟨ns, hns, hsays⟩ := ih (p.after ['[']) (endsToken_cons ']' rfl rest)
      refine ⟨_, (Derives.collection .vector hns).sequence_form, Node.says_one ?_ (by simp)⟩
      rw [spanning, Node.toDatum, Node.toData_eq_map, Node.map_toDatum_of_says hsays]
  | @set items s hpairwise _ ih =>
      obtain ⟨ns, hns, hsays⟩ := ih (p.after ['#', '{']) (endsToken_cons '}' rfl rest)
      refine ⟨_, (Derives.collection .set hns).sequence_form, Node.says_one ?_ (by simp)⟩
      rw [spanning, Node.toDatum, Node.toKeys_eq_map, Node.map_toKey_of_says hsays,
        Key.distinct_atoms hpairwise]
  | @map entries s hpairwise _ ih =>
      obtain ⟨ns, hns, hsays⟩ := ih (p.after ['{']) (endsToken_cons '}' rfl rest)
      refine ⟨_, (Derives.collection .map hns).sequence_form, Node.says_one ?_ (by simp)⟩
      rw [spanning, Node.toDatum, Node.entryData_of_says hsays,
        Key.distinctEntries_atoms hpairwise]
  | @cons d ds s blanks u _ hne hblanks _ _ ihd ihds =>
      have hends : EndsToken (blanks ++ u ++ rest) := by
        obtain ⟨c, blanks, rfl⟩ := List.exists_cons_of_ne_nil hne
        exact endsToken_cons c (by simp [CodePoint.isTerminator, hblanks c List.mem_cons_self]) _
      obtain ⟨ms, hms, hd⟩ := ihd p hends
      obtain ⟨ns, hns, hds⟩ := ihds ((p.after s).after blanks) hrest
      have htail := (Derives.sequence_blanks hblanks).sequence_append hns
      refine ⟨_, hms.sequence_append htail, ?_⟩
      cases hd with
      | cons hm hnil =>
          cases hnil
          exact .cons hm hds

end WritesRow

/-- Data read back as they are written. -/
theorem readDatum_of_writes {d : Datum} {s : Text} (h : d.Writes s) : readDatum s = .ok d := by
  have hends : EndsToken [] := by simp [EndsToken]
  obtain ⟨ns, hns, hsays⟩ := WritesRow.derives h .first hends
  cases hsays with
  | cons hn hrest =>
      cases hrest
      exact readDatum_eq_ok_iff.mpr ⟨_, parse_of_derives hns, hn.1⟩

/-- A map with a string and a keyword as keys, and with a set and a vector of numbers as
values. -/
theorem readDatum_of_writes_nested :
    let d : Datum := .map
      [(.atom (.string "a\"\\"), .set [.atom .nil, .atom (.bool true), .symbol "-x"]),
        (.keyword "k/n", .vector [.atom (.number (.int (-12))), .atom (.number (.ratio (3 / 4)))])]
    let s : Text := "\x7b\"a\\\"\\\\\" #\x7bnil true,\n-x\x7d :k/n [-12 3/4]\x7d"
    d.Writes s ∧ readDatum s = .ok d := by
  intro d s
  have hspace : (" " : Text) ≠ [] ∧ ∀ c ∈ (" " : Text), c.isBlank = true := by decide
  have hcomma : (",\n" : Text) ≠ [] ∧ ∀ c ∈ (",\n" : Text), c.isBlank = true := by decide
  let set : Text := '#' :: '{' :: ((("nil" : Text) ++ ((" " : Text) ++ (("true" : Text) ++
    ((",\n" : Text) ++ ("-x" : Text))))) ++ [CodePoint.ofChar '}'])
  have hset : WritesRow [.set ([.nil, .bool true, .symbol "-x"].map .atom)] set := by
    refine .set (by decide) (.cons (.atom .nil) hspace.1 hspace.2 (by simp)
      (.cons (.atom .true) hcomma.1 hcomma.2 (by simp) (.atom (.symbol ?_))))
    refine ⟨by decide, by decide, by decide, ?_, ?_⟩
    · rintro c ⟨⟩
      decide
    · rintro c d rest ⟨⟩ -
      decide
  let vector : Text := '[' :: ((Text.ofInt (-12) ++ ((" " : Text) ++
    (Text.ofInt (3 / 4 : Rat).num ++ CodePoint.ofChar '/' :: Text.ofNat (3 / 4 : Rat).den))) ++
    [CodePoint.ofChar ']'])
  have hvector : WritesRow
      [.vector [.atom (.number (.int (-12))), .atom (.number (.ratio (3 / 4)))]] vector := by
    refine .vector (.cons (.atom (.int ?_)) hspace.1 hspace.2 (by simp)
      (.atom (.ratio ?_ ?_ ?_))) <;> decide +kernel
  let entries : List (Atom × Datum) :=
    [(.string "a\"\\", .set ([.nil, .bool true, .symbol "-x"].map .atom)),
      (.keyword "k/n", .vector [.atom (.number (.int (-12))), .atom (.number (.ratio (3 / 4)))])]
  have hname : Scalar.IsKeywordName "k/n" := ⟨by decide, by decide, by decide⟩
  let row : Text := (CodePoint.ofChar '"' :: (Text.escaped "a\"\\" ++ [CodePoint.ofChar '"'])) ++
    ((" " : Text) ++ (set ++ ((" " : Text) ++ ((CodePoint.ofChar ':' :: ("k/n" : Text)) ++
      ((" " : Text) ++ vector)))))
  have hrow : WritesRow (entries.flatMap fun e => [.atom e.1, e.2]) row :=
    .cons (.atom .string) hspace.1 hspace.2 (by simp) (.cons hset hspace.1 hspace.2 (by simp)
      (.cons (.atom (.keyword hname)) hspace.1 hspace.2 (by simp) hvector))
  have htext : CodePoint.ofChar '{' :: (row ++ [CodePoint.ofChar '}']) = s := by decide +kernel
  have hwrites : d.Writes s := htext ▸ WritesRow.map (by decide) hrow
  exact ⟨hwrites, readDatum_of_writes hwrites⟩

end EdnLint
