import EdnLint.Document.Node

/-!
# Finding a path in a document

An error names a place in the data: the keys and indices from the top form down.
`resolve` follows the same steps through the tree. The text may have moved on, so
a step that leads nowhere ends the walk at the deepest node reached; only when
the very first step fails is there no location.
-/

namespace EdnLint

/-- Where a path led: the node, the steps that were taken, and whether that was
all of them. -/
structure Location where
  node : Node
  exact : Bool
  matched : List Key
  deriving Repr

namespace Node

/-- The form that paths start from: the first form of a document, and any other
node itself. -/
def topForm? (n : Node) : Option Node :=
  if n.shape = .document then n.forms.head? else some n

/-- The child a step leads to, through all wrappers. -/
def follow? (n : Node) (step : Key) : Option Node := n.unwrap.child? step

/-- The walk from a node that `matched` led to. -/
def walk (n : Node) (matched : List Key) : List Key → Option Location
  | [] => some ⟨n, true, matched⟩
  | step :: path =>
      match n.follow? step with
      | some child => child.walk (matched ++ [step]) path
      | none => if matched.isEmpty then none else some ⟨n, false, matched⟩

/-- The location of a path. An unknown key has no place of its own in the schema,
so with `unknownKey` the path ends at the map that holds it. -/
def resolve (tree : Node) (path : List Key) (unknownKey : Bool) : Option Location :=
  tree.topForm?.bind fun top =>
    top.walk [] (if unknownKey then path.dropLast else path)

@[simp] theorem walk_nil (n : Node) (matched : List Key) :
    n.walk matched [] = some ⟨n, true, matched⟩ := rfl

theorem walk_cons (n : Node) (matched : List Key) (step : Key) (path : List Key) :
    n.walk matched (step :: path) =
      match n.follow? step with
      | some child => child.walk (matched ++ [step]) path
      | none => if matched.isEmpty then none else some ⟨n, false, matched⟩ := rfl

end Node

end EdnLint
