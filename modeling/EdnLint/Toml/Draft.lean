import EdnLint.Settings.Basic
import EdnLint.Toml.Error

/-!
# A TOML document in the making

A draft holds the members read so far, the table that the next pairs belong to, and
which tables may not be opened again. A table is *declared* by its header, or by a
dotted key at the end of the section that uses it; it cannot be declared twice, nor
can a dotted key lead through it. An array or an inline table is *frozen* with
everything below it.

`reach` walks a key from table to table, making those that are missing. A key that
leads through an array of tables means the last one.
-/

namespace EdnLint

namespace Toml

/-- Changes the table under a key with `change`. Missing tables are made. An array
stands for its last item if `throughArrays` holds. -/
def reach (throughArrays : Bool)
    (change : List (Text × Setting) → Except Cause (List (Text × Setting))) :
    Dotted → List (Text × Setting) → Except Cause (List (Text × Setting))
  | [], members => change members
  | name :: key, members =>
      match Members.get? name members with
      | none => do
          let inner ← reach throughArrays change key []
          return Members.put name (.table inner) members
      | some (.table inner) => do
          let inner ← reach throughArrays change key inner
          return Members.put name (.table inner) members
      | some (.array items) =>
          match throughArrays, items.getLast? with
          | true, some (.table inner) => do
              let inner ← reach throughArrays change key inner
              return Members.put name (.array (items.dropLast ++ [.table inner])) members
          | _, _ => .error .overwrite
      | some _ => .error .overwrite

/-- Adds a value under a new name; `taken` is the cause if the name is not new. -/
def addMember (taken : Cause) (name : Text) (value : Setting) (members : List (Text × Setting)) :
    Except Cause (List (Text × Setting)) :=
  match Members.get? name members with
  | none => .ok (Members.put name value members)
  | some _ => .error taken

/-- Adds an empty table to the array under a name. -/
def addItem (name : Text) (members : List (Text × Setting)) :
    Except Cause (List (Text × Setting)) :=
  match Members.get? name members with
  | none => .ok (Members.put name (.array [.table []]) members)
  | some (.array items) => .ok (Members.put name (.array (items ++ [.table []])) members)
  | some _ => .error .overwrite

/-- The table that a key's last part belongs to, and that part. -/
def splitKey (key : Dotted) : Dotted × Text := (key.dropLast, key.getLast?.getD [])

/-- Whether a value is frozen with everything below it. -/
def isContainer : Setting → Bool
  | .array _ => true
  | .table _ => true
  | _ => false

/-- A document in the making. -/
structure Draft where
  members : List (Text × Setting)
  header : Dotted
  declared : List Dotted
  frozen : List Dotted
  /-- The tables that the current section made by dotted keys. -/
  pending : List Dotted
  deriving Repr

namespace Draft

/-- Nothing read yet. -/
def empty : Draft := ⟨[], [], [], [], []⟩

/-- Whether a key has been declared. -/
def isDeclared (d : Draft) (key : Dotted) : Bool := d.declared.contains key

/-- Whether a key is or lies below an array or an inline table. -/
def isFrozen (d : Draft) (key : Dotted) : Bool := d.frozen.any fun known => known.isPrefixOf key

/-- Ends a section: the tables made by its dotted keys are declared. -/
def endSection (d : Draft) : Draft :=
  { d with declared := d.declared ++ d.pending, pending := [] }

/-- Opens a table by its header. -/
def openTable (d : Draft) (key : Dotted) : Except Cause Draft := do
  if d.isDeclared key || d.isFrozen key then .error (.declaredTwice key)
  let members ← reach true .ok key d.members
  return { d with members := members, declared := key :: d.declared, header := key }

/-- Opens another table of an array by its header. What was known about the tables
below the one before does not hold for it. -/
def openItem (d : Draft) (key : Dotted) : Except Cause Draft := do
  if d.isFrozen key then .error (.immutable key)
  let (parent, name) := splitKey key
  let members ← reach true (addItem name) parent d.members
  let others (known : Dotted) : Bool := !key.isPrefixOf known
  return { d with
    members := members
    declared := key :: d.declared.filter others
    frozen := d.frozen.filter others
    header := key }

/-- The tables that a dotted key leads through. -/
def through (header key : Dotted) : List Dotted :=
  (List.range (key.length - 1)).map fun i => header ++ key.take (i + 1)

/-- Adds a pair to the current table. -/
def addPair (d : Draft) (key : Dotted) (value : Setting) : Except Cause Draft := do
  let ways := through d.header key
  match ways.find? d.isDeclared with
  | some way => .error (.redefined way)
  | none =>
      let (parent, name) := splitKey key
      let parent := d.header ++ parent
      if d.isFrozen parent then .error (.immutable parent)
      let members ← reach true (addMember .overwrite name value) parent d.members
      return { d with
        members := members
        pending := d.pending ++ ways
        frozen := if isContainer value then (d.header ++ key) :: d.frozen else d.frozen }

end Draft

/-- An inline table in the making: its members, and the keys of the containers
among them. -/
structure InlineDraft where
  members : List (Text × Setting)
  frozen : List Dotted
  deriving Repr

namespace InlineDraft

/-- Nothing read yet. -/
def empty : InlineDraft := ⟨[], []⟩

/-- Adds a pair. -/
def addPair (d : InlineDraft) (key : Dotted) (value : Setting) : Except Cause InlineDraft := do
  if d.frozen.any fun known => known.isPrefixOf key then .error (.immutable key)
  let (parent, name) := splitKey key
  let members ← reach false (addMember (.duplicate name) name value) parent d.members
  return ⟨members, if isContainer value then key :: d.frozen else d.frozen⟩

end InlineDraft

end Toml

end EdnLint
