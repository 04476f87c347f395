import EdnLint.Number.Basic
import EdnLint.Datum.Name

/-!
# Data

What a document says, without its layout. Atoms are the scalars. A key is what a
map is keyed by and what a set holds: an atom, a sequence or an unordered bag of
keys. A datum is an atom, a vector of data, a set of keys or a map from keys to
data in order of first occurrence.

Two keys are the same if they are equal by value, numbers across all kinds and
truth values counting as one and zero; the float that is not a number is the same
key as itself. `Key.equal` is equality as a test sees it, which differs in that
one case only.
-/

namespace EdnLint

/-- A scalar. Characters and patterns are strings. -/
inductive Atom where
  | nil
  | bool (b : Bool)
  | number (n : Number)
  | string (t : Text)
  | keyword (name : Text)
  | symbol (name : Text)
  deriving DecidableEq, Repr

/-- A value that can key a map or be in a set. -/
inductive Key where
  | atom (a : Atom)
  | tuple (items : List Key)
  | bag (items : List Key)
  deriving Repr

/-- A value of a document. -/
inductive Datum where
  | atom (a : Atom)
  | vector (items : List Datum)
  | set (items : List Key)
  | map (entries : List (Key × Datum))
  deriving Repr

instance : Inhabited Key := ⟨.atom .nil⟩

instance : Inhabited Datum := ⟨.atom .nil⟩

namespace Atom

/-- The atom as a number; a truth value counts as one or zero. -/
def numeric? : Atom → Option Number
  | .bool b => some (.int (if b then 1 else 0))
  | .number n => some n
  | _ => none

/-- Whether two atoms are the same key. -/
def same (a b : Atom) : Bool :=
  match a.numeric?, b.numeric? with
  | some m, some n => m.same n
  | none, none => a == b
  | _, _ => false

/-- Whether two atoms are of one kind, numbers of different kinds being apart. -/
def sameKind : Atom → Atom → Bool
  | .nil, .nil => true
  | .bool _, .bool _ => true
  | .number (.int _), .number (.int _) => true
  | .number (.float _), .number (.float _) => true
  | .number (.ratio _), .number (.ratio _) => true
  | .number (.decimal _), .number (.decimal _) => true
  | .string _, .string _ => true
  | .keyword _, .keyword _ => true
  | .symbol _, .symbol _ => true
  | _, _ => false

/-- Whether the atom is the float that is not a number. -/
def isNaN : Atom → Bool
  | .number n => n.isNaN
  | _ => false

/-- The name of the atom's type in messages. -/
def typeName : Atom → Text
  | .nil => "nil"
  | .bool _ => "boolean"
  | .number (.int _) => "integer"
  | .number _ => "number"
  | .string _ => "string"
  | .keyword _ => "keyword"
  | .symbol _ => "symbol"

end Atom

namespace Key

/-- The keyword `:name` as a key. -/
def keyword (name : Text) : Key := .atom (.keyword name)

/-- The symbol `name` as a key. -/
def symbol (name : Text) : Key := .atom (.symbol name)

/-- A place in a sequence as a key. -/
def index (i : Nat) : Key := .atom (.number (.int i))

mutual

/-- Whether two keys are the same map key. -/
def same : Key → Key → Bool
  | .atom a, .atom b => a.same b
  | .tuple xs, .tuple ys => sameAll xs ys
  | .bag xs, .bag ys => xs.length == ys.length && includedIn ys xs
  | _, _ => false

/-- Whether two sequences of keys are the same place by place. -/
def sameAll : List Key → List Key → Bool
  | [], [] => true
  | x :: xs, y :: ys => same x y && sameAll xs ys
  | _, _ => false

/-- Whether every key of the list is the same as one of `ys`. -/
def includedIn (ys : List Key) : List Key → Bool
  | [] => true
  | x :: xs => ys.any (fun y => same x y) && includedIn ys xs

end

/-- Whether the key is the bare float that is not a number. -/
def isNaN : Key → Bool
  | .atom a => a.isNaN
  | _ => false

/-- Equality of keys as a test sees it. -/
def equal (k l : Key) : Bool := k.same l && !k.isNaN

/-- Whether two keys are of one kind. -/
def sameKind : Key → Key → Bool
  | .atom a, .atom b => a.sameKind b
  | .tuple _, .tuple _ => true
  | .bag _, .bag _ => true
  | _, _ => false

/-- The keyword's name, if the key is a keyword. -/
def keyword? : Key → Option Text
  | .atom (.keyword name) => some name
  | _ => none

/-- The symbol's name, if the key is a symbol. -/
def symbol? : Key → Option Text
  | .atom (.symbol name) => some name
  | _ => none

/-- The name of the key's type in messages; sequences are vectors and bags sets. -/
def typeName : Key → Text
  | .atom a => a.typeName
  | .tuple _ => "vector"
  | .bag _ => "set"

/-- Whether a key is the same as one of the list. -/
def isIn (k : Key) (ks : List Key) : Bool := ks.any fun l => k.same l

/-- The keys without those that repeat an earlier one; `seen` are the keys before. -/
def distinctFrom (seen : List Key) : List Key → List Key
  | [] => []
  | k :: ks =>
      if k.isIn seen then distinctFrom seen ks else k :: distinctFrom (seen ++ [k]) ks

/-- The keys without repetitions, in order of first occurrence. -/
def distinct (ks : List Key) : List Key := distinctFrom [] ks

/-- The entry stored under a key. -/
def lookup? {α : Type} (k : Key) : List (Key × α) → Option α
  | [] => none
  | (l, a) :: entries => if k.same l then some a else lookup? k entries

/-- The entries without those under a repeated key; `seen` are the keys before. -/
def distinctEntriesFrom {α : Type} (seen : List Key) : List (Key × α) → List (Key × α)
  | [] => []
  | (k, a) :: entries =>
      if k.isIn seen then distinctEntriesFrom seen entries
      else (k, a) :: distinctEntriesFrom (seen ++ [k]) entries

/-- The first entry under each key, in order. -/
def distinctEntries {α : Type} (entries : List (Key × α)) : List (Key × α) :=
  distinctEntriesFrom [] entries

@[simp] theorem distinct_nil : distinct [] = [] := rfl

@[simp] theorem lookup?_nil {α : Type} (k : Key) : (lookup? k [] : Option α) = none := rfl

theorem lookup?_cons {α : Type} (k l : Key) (a : α) (entries : List (Key × α)) :
    lookup? k ((l, a) :: entries) = if k.same l then some a else lookup? k entries := rfl

end Key

namespace Datum

/-- The datum nil. -/
def nil : Datum := .atom .nil

/-- The symbol's name, if the datum is a symbol. -/
def symbol? : Datum → Option Text
  | .atom (.symbol name) => some name
  | _ => none

/-- The string, if the datum is one. -/
def string? : Datum → Option Text
  | .atom (.string t) => some t
  | _ => none

/-- The name of the datum's type in messages. -/
def typeName : Datum → Text
  | .atom a => a.typeName
  | .vector _ => "vector"
  | .set _ => "set"
  | .map _ => "map"

/-- Whether the datum is nil. -/
def isNil : Datum → Bool
  | .atom .nil => true
  | _ => false

mutual

/-- A key read as a datum: sequences are vectors and bags are sets. -/
def ofKey : Key → Datum
  | .atom a => .atom a
  | .tuple items => .vector (ofKeys items)
  | .bag items => .set items

/-- A sequence of keys read as data. -/
def ofKeys : List Key → List Datum
  | [] => []
  | k :: ks => ofKey k :: ofKeys ks

end

/-- The values stored under a keyword. -/
def field? (entries : List (Key × Datum)) (name : Text) : Option Datum :=
  Key.lookup? (.keyword name) entries

/-- What stands under a keyword; nil where nothing does. -/
def field (entries : List (Key × Datum)) (name : Text) : Datum :=
  (field? entries name).getD nil

end Datum

end EdnLint
