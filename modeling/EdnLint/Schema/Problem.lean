import EdnLint.Datum.Display

/-!
# What can be wrong with a namespace

A problem is the cause of an issue, and `Problem.message` is its wording. The
wording can fail, because a problem may quote a number that is too long to be
written out.
-/

namespace EdnLint

/-- The values an enumeration admits, as a vector or as a set. -/
inductive Choices where
  | vector (items : List Datum)
  | set (items : List Key)
  deriving Repr

namespace Choices

/-- Whether a keyword is one of the choices. -/
def admits (name : Text) : Choices → Bool
  | .vector items =>
      items.any fun d =>
        match d with
        | .atom (.keyword other) => other == name
        | _ => false
  | .set items => (Key.keyword name).isIn items

/-- The choices as a message lists them. -/
def shown : Choices → Except Fault (List Text)
  | .vector items => items.mapM Datum.plain
  | .set items => items.mapM Key.plain

end Choices

/-- A cause of an issue. -/
inductive Problem where
  | notNamespace (type : Text)
  | noNamespaceName
  | definitionName (type : Text)
  | importsNotSymbols
  | unresolvedImport (name : Text)
  | notDefinition (type : Text)
  | tagsNotSymbols
  | unresolvedTag (name : Text)
  | notSchema (type : Text)
  | typeMissing
  | unknownType (type : Datum)
  | unknownKey (key : Key)
  | keysNotMap
  | keyNotKeyword (type : Text)
  | requireNotKeywords
  | invalidPattern (reason : Text)
  | wrongType (expected actual : Text)
  | tooSmall (bound value : Atom)
  | tooLarge (bound value : Atom)
  | tooShort (bound : Atom) (length : Nat)
  | tooLong (bound : Atom) (length : Nat)
  | tooFewItems (bound : Atom) (count : Nat)
  | tooManyItems (bound : Atom) (count : Nat)
  | noMatch (pattern : Text)
  | notAmong (choices : Choices) (keyword : Text)
  | keyMissing (key : Key)
  deriving Repr

namespace Problem

/-- A list of texts as a message shows it, in order. -/
def listText (items : List Text) : Text :=
  ("[" : Text) ++ Text.join ", " ((items.mergeSort Text.le).map Text.quoted) ++ "]"

/-- The wording of a problem. -/
def message : Problem → Except Fault Text
  | .notNamespace type => .ok (("Expected namespace to be a map, got " : Text) ++ type)
  | .noNamespaceName => .ok "Expected symbol for 'ns"
  | .definitionName type => .ok (("Expected symbol as definition name, got " : Text) ++ type)
  | .importsNotSymbols => .ok "Expected import to be a set of symbols"
  | .unresolvedImport name => .ok (("Could not resolve import '" : Text) ++ name)
  | .notDefinition type => .ok (("Expected type of map, got " : Text) ++ type)
  | .tagsNotSymbols => .ok "Expected :zen/tags to be a set of symbols"
  | .unresolvedTag name => .ok (("Could not resolve symbol '" : Text) ++ name)
  | .notSchema type => .ok (("Expected schema to be a map, got " : Text) ++ type)
  | .typeMissing => .ok ":type is required"
  | .unknownType type => do return ("Unknown type '" : Text) ++ (← type.plain)
  | .unknownKey key => do return ("unknown key " : Text) ++ (← key.plain)
  | .keysNotMap => .ok "Expected :keys to be a map"
  | .keyNotKeyword type => .ok (("Expected keyword, got " : Text) ++ type)
  | .requireNotKeywords => .ok "Expected :require to be a set of keywords"
  | .invalidPattern reason => .ok (("Invalid regex: " : Text) ++ reason)
  | .wrongType expected actual =>
      .ok (("Expected type of '" : Text) ++ expected ++ ", got '" ++ actual)
  | .tooSmall bound value => do
      let bound ← bound.plain
      return ("Expected >= " : Text) ++ bound ++ ", got " ++ (← value.plain)
  | .tooLarge bound value => do
      let bound ← bound.plain
      return ("Expected <= " : Text) ++ bound ++ ", got " ++ (← value.plain)
  | .tooShort bound length => do
      return ("Expected length >= " : Text) ++ (← bound.plain) ++ ", got " ++ Text.ofNat length
  | .tooLong bound length => do
      return ("Expected length <= " : Text) ++ (← bound.plain) ++ ", got " ++ Text.ofNat length
  | .tooFewItems bound count => do
      return ("Expected at least " : Text) ++ (← bound.plain) ++ " items, got " ++ Text.ofNat count
  | .tooManyItems bound count => do
      return ("Expected at most " : Text) ++ (← bound.plain) ++ " items, got " ++ Text.ofNat count
  | .noMatch pattern => .ok (("Expected to match " : Text) ++ pattern.quoted)
  | .notAmong choices keyword => do
      return ("Expected one of " : Text) ++ listText (← choices.shown) ++ ", got :" ++ keyword
  | .keyMissing key => do return (← key.plain) ++ " is required"

end Problem

end EdnLint
