import EdnLint.Text.Basic

/-!
# Qualified names

Keywords and symbols may be qualified: the part before the first stroke is the
qualifier and the rest is the base. A stroke at either end qualifies nothing, so
`/` alone is a name.
-/

namespace EdnLint

namespace Name

/-- The qualifier, if there is one, and the base of a name. -/
def split (name : Text) : Option Text × Text :=
  match Text.splitFirst? '/' name with
  | some (before, after) =>
      if before.isEmpty || after.isEmpty then (none, name) else (some before, after)
  | none => (none, name)

/-- The part before the stroke of a qualified name. -/
def qualifier? (name : Text) : Option Text := (split name).1

/-- The part behind the stroke, or the whole of an unqualified name. -/
def base (name : Text) : Text := (split name).2

/-- The name `base` qualified by `qualifier`. -/
def qualify (qualifier base : Text) : Text := qualifier ++ CodePoint.ofChar '/' :: base

end Name

end EdnLint
