import EdnLint.Members

/-!
# Log records

What the library has to say beside its results. A record names the part that
speaks; who listens, and from which level on, is decided where the records are
shown.
-/

namespace EdnLint

/-- A log record. -/
structure LogRecord where
  level : Nat
  source : Text
  message : Text
  deriving DecidableEq, Repr

namespace LogRecord

def debugLevel : Nat := 10
def infoLevel : Nat := 20
def warningLevel : Nat := 30
def errorLevel : Nat := 40
def criticalLevel : Nat := 50

/-- What stands in a message for the account of a fault. -/
def account : Text := "<traceback>"

/-- The name of a level in log lines. -/
def levelName (level : Nat) : Text :=
  if level = criticalLevel then "CRITICAL"
  else if level = errorLevel then "ERROR"
  else if level = warningLevel then "WARNING"
  else if level = infoLevel then "INFO"
  else if level = debugLevel then "DEBUG"
  else ("Level " : Text) ++ Text.ofNat level

/-- The capital of a letter, as far as it can stand in the name of a level. Outside
ASCII the dotless i and the long s have an ASCII capital; the ligatures that have
two give no pair of letters of such a name. -/
def capital (c : CodePoint) : CodePoint :=
  if h : 97 ≤ c.val ∧ c.val ≤ 122 then ⟨c.val - 32, by omega⟩
  else if c.val = 0x131 then 'I'
  else if c.val = 0x17F then 'S'
  else c

/-- The names of levels, with the second names that some of them have. -/
def levelNames : List (Text × Nat) :=
  [("CRITICAL", criticalLevel), ("FATAL", criticalLevel), ("ERROR", errorLevel),
   ("WARNING", warningLevel), ("WARN", warningLevel), ("INFO", infoLevel), ("DEBUG", debugLevel),
   ("NOTSET", 0)]

/-- The level of a name, in capitals or not. -/
def levelOf? (name : Text) : Option Nat := Members.get? (name.map capital) levelNames

/-- A record as a line of a log. -/
def line (r : LogRecord) : Text := levelName r.level ++ " " ++ r.source ++ ": " ++ r.message

end LogRecord

end EdnLint
