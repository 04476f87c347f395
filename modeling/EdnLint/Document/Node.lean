import EdnLint.Datum.Basic
import EdnLint.Text.Position

/-!
# The tree of a document

A node is a form with the place it stands at. Its forms are the forms written
inside it, in order, whatever they mean: a map node holds its keys and values in
turn, and a wrapper (a tag, metadata, a quote) holds what it wraps last.

`Node.toDatum` and `Node.toKey` forget the places. `Node.children` gives the
forms the names by which a path reaches them: the keys of a map, the indices of a
sequence.
-/

namespace EdnLint

/-- What a node is. -/
inductive Shape where
  | document
  | map
  | vector
  | list
  | set
  | scalar (value : Atom)
  | tagged (tag : Text)
  | metadata
  | quote
  deriving DecidableEq, Repr

namespace Shape

/-- A wrapper stands in front of the form it means. -/
def isWrapper : Shape → Bool
  | .tagged _ | .metadata | .quote => true
  | _ => false

/-- A sequence has its forms at indices. -/
def isSequence : Shape → Bool
  | .document | .vector | .list | .set => true
  | _ => false

/-- A collection is a map or a sequence. -/
def isCollection (s : Shape) : Bool := s == .map || s.isSequence

end Shape

/-- A form of a document and its place, the end being exclusive. -/
inductive Node where
  | mk (shape : Shape) (start stop : Position) (forms : List Node)
  deriving Repr

namespace Node

def shape : Node → Shape
  | .mk shape _ _ _ => shape

def start : Node → Position
  | .mk _ start _ _ => start

def stop : Node → Position
  | .mk _ _ stop _ => stop

def forms : Node → List Node
  | .mk _ _ _ forms => forms

mutual

/-- The form under all wrappers. A wrapper around nothing stays. -/
def unwrap : Node → Node
  | .mk shape start stop forms =>
      if shape.isWrapper then unwrapLast (.mk shape start stop forms) forms
      else .mk shape start stop forms

/-- The last form unwrapped, or `whole` where there is none. -/
def unwrapLast (whole : Node) : List Node → Node
  | [] => whole
  | [form] => unwrap form
  | _ :: form :: forms => unwrapLast whole (form :: forms)

end

mutual

/-- The node as a map key or set member. A map is the bag of its entries. -/
def toKey : Node → Key
  | .mk shape _ _ forms =>
      match shape with
      | .scalar value => .atom value
      | .tagged _ | .metadata | .quote => lastKey forms
      | .map => .bag (Key.distinct (entryKeys forms))
      | .set => .bag (Key.distinct (toKeys forms))
      | .document | .vector | .list => .tuple (toKeys forms)

/-- Every form as a key. -/
def toKeys : List Node → List Key
  | [] => []
  | form :: forms => toKey form :: toKeys forms

/-- The forms of a map two by two; a last key without a value is no entry. -/
def entryKeys : List Node → List Key
  | key :: value :: forms => .tuple [toKey key, toKey value] :: entryKeys forms
  | _ => []

/-- The key of the last form. -/
def lastKey : List Node → Key
  | [] => .tuple []
  | [form] => toKey form
  | _ :: form :: forms => lastKey (form :: forms)

end

mutual

/-- The datum the node says. A document says its first form. -/
def toDatum : Node → Datum
  | .mk shape _ _ forms =>
      match shape with
      | .scalar value => .atom value
      | .tagged _ | .metadata | .quote => lastDatum forms
      | .map => .map (Key.distinctEntries (entryData forms))
      | .set => .set (Key.distinct (toKeys forms))
      | .document => firstDatum forms
      | .vector | .list => .vector (toData forms)

/-- Every form as a datum. -/
def toData : List Node → List Datum
  | [] => []
  | form :: forms => toDatum form :: toData forms

/-- The entries of a map as written, repeated keys included. -/
def entryData : List Node → List (Key × Datum)
  | key :: value :: forms => (toKey key, toDatum value) :: entryData forms
  | _ => []

/-- The datum of the first form. -/
def firstDatum : List Node → Datum
  | [] => .nil
  | form :: _ => toDatum form

/-- The datum of the last form. -/
def lastDatum : List Node → Datum
  | [] => .nil
  | [form] => toDatum form
  | _ :: form :: forms => lastDatum (form :: forms)

end

/-- The values of a map's forms under their keys. -/
def entries : List Node → List (Key × Node)
  | key :: value :: forms => (key.toKey, value) :: entries forms
  | _ => []

/-- The forms of a sequence under their indices, counted from `i`. -/
def indexedFrom (i : Nat) : List Node → List (Key × Node)
  | [] => []
  | form :: forms => (.index i, form) :: indexedFrom (i + 1) forms

/-- The nodes a path can step to, with the key or index of the step. -/
def children (n : Node) : List (Key × Node) :=
  if n.shape = .map then entries n.forms
  else if n.shape.isSequence then indexedFrom 0 n.forms
  else []

/-- The first child under a key of the same kind and value. -/
def child? (n : Node) (key : Key) : Option Node :=
  (n.children.find? fun (k, _) => k.sameKind key && k.equal key).map (·.2)

@[simp] theorem shape_mk (s : Shape) (p q : Position) (fs : List Node) :
    (mk s p q fs).shape = s := rfl

@[simp] theorem start_mk (s : Shape) (p q : Position) (fs : List Node) :
    (mk s p q fs).start = p := rfl

@[simp] theorem stop_mk (s : Shape) (p q : Position) (fs : List Node) :
    (mk s p q fs).stop = q := rfl

@[simp] theorem forms_mk (s : Shape) (p q : Position) (fs : List Node) :
    (mk s p q fs).forms = fs := rfl

end Node

end EdnLint
