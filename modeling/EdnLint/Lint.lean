import EdnLint.Document.Reader
import EdnLint.Finding
import EdnLint.Glob
import EdnLint.Log
import EdnLint.Schema.Report
import EdnLint.Schema.Vocabulary
import EdnLint.Uri

/-!
# The lint cycle

Linting a document reads it, submits its datum to a validator, takes the issues
the validator has collected, and turns each into a finding. A document that does
not read gives one finding and never reaches the validator. The validator's issues
are cleared after every submission, whether it succeeded or not, and a fault
inside the cycle ends it without findings.

A validator is anything with a state that can be submitted to, read and cleared;
the store of namespaces is one.
-/

namespace EdnLint

/-- What a cycle needs of a validator with state `σ`. -/
structure Validator (σ : Type) where
  /-- Submits the datum of the file at a path. -/
  submit : Datum → Text → σ → σ × List LogRecord × Option Fault
  /-- The issues collected so far. -/
  read : σ → σ × Except Fault (List Issue)
  /-- Forgets the issues. -/
  clear : σ → σ

/-- Where findings go. -/
inductive Sink where
  | absent
  | working
  | failing
  deriving DecidableEq, Repr

/-- What came of a cycle. -/
structure LintResult (σ : Type) where
  state : σ
  findings : List Finding
  /-- What was handed to the sink. -/
  published : List (List Finding)
  log : List LogRecord

namespace Lint

/-- Who speaks in the log. -/
def logSource : Text := "zenlsp.lint"

/-- The patterns of documents that are never linted: the scratch buffers of an
editor. -/
def defaultExclude : List Text := ["*.calva/output-window/output.calva-repl"]

/-- Whether a document is left out. -/
def isExcluded (exclude : List Text) (uri : Text) : Bool :=
  (defaultExclude ++ exclude).any fun pattern => Glob.isMatch pattern uri

/-- The path of an issue from the top of the document: the definition it was found
in comes first, under its unqualified name. -/
def issuePath (i : Issue) : List Key :=
  match i.resource with
  | some resource => .symbol (Name.base resource) :: i.path
  | none => i.path

/-- The words that mark an issue about a key itself. -/
def unknownKeyMark : Text := "unknown key"

/-- Whether an issue belongs to the map around the last step of its path. -/
def isUnknownKey (i : Issue) : Bool := Text.hasInfix unknownKeyMark i.message

/-- The location of an issue. -/
def locate (tree : Node) (i : Issue) : Option Location :=
  tree.resolve (issuePath i) (isUnknownKey i)

/-- The finding of an issue, if it has a place. -/
def finding? (tree : Node) (lines : List Text) (i : Issue) : Option Finding :=
  Finding.locate? (locate tree i) i.hints lines i.message (Severity.ofLevel i.severity)

/-- What resolving a path has to say if it does not end where the path does. -/
def locationNote (tree : Node) (i : Issue) : Option LogRecord :=
  let path := if isUnknownKey i then (issuePath i).dropLast else issuePath i
  let note (message : Except Fault Text) : Option LogRecord :=
    message.toOption.map fun m => ⟨LogRecord.debugLevel, "zenlsp.location", m⟩
  match tree.topForm?, locate tree i, path with
  | some _, none, step :: _ => note do
      return ("resolve: no top-level entry for " : Text) ++ (← step.detailed)
  | some _, some ⟨_, false, matched⟩, path => note do
      let whole ← (Key.tuple path).detailed
      let taken ← (Key.tuple matched).detailed
      return ("resolve: path " : Text) ++ whole ++ " diverges from source after " ++ taken
  | _, _, _ => none

/-- An issue belongs to the document unless it names a definition of another
namespace. -/
def belongs (ns : Option Text) (i : Issue) : Bool :=
  match i.resource with
  | none => true
  | some resource => ns.isSome && Name.qualifier? resource == ns

/-- The finding of a document that does not read. -/
def readFinding (lines : List Text) (e : ReadError) : Finding :=
  Finding.ofRange lines e.message .error e.position.line e.position.col none none

/-- The findings of issues, and what is logged about them. -/
def findings (tree : Node) (lines : List Text) (ns : Option Text) :
    List Issue → List Finding × List LogRecord
  | [] => ([], [])
  | i :: issues =>
      let (found, log) := findings tree lines ns issues
      if belongs ns i then
        ((finding? tree lines i).toList ++ found, (locationNote tree i).toList ++ log)
      else
        let message := ("lint: dropping error for foreign resource " : Text) ++ i.resource.getD []
        (found, ⟨LogRecord.debugLevel, logSource, message⟩ :: log)

/-- Submits a datum and reads the issues, and clears them in any case. -/
def consult {σ : Type} (v : Validator σ) (uri : Text) (d : Datum) (s : σ) :
    σ × List LogRecord × Except Fault (List Issue) :=
  match Uri.path uri with
  | .error fault => (v.clear s, [], .error fault)
  | .ok path =>
      match v.submit d path s with
      | (s, log, some fault) => (v.clear s, log, .error fault)
      | (s, log, none) =>
          let (s, issues) := v.read s
          (v.clear s, log, issues)

/-- The cycle for one document: the state behind it, the log, and the findings or
the fault that ended it. -/
def cycle {σ : Type} (v : Validator σ) (text uri : Text) (s : σ) :
    σ × List LogRecord × Except Fault (List Finding) :=
  let lines := Text.lines text
  match parse text with
  | .error (.error e) =>
      let message := ("lint: " : Text) ++ uri ++ " does not parse: " ++ e.message
      (s, [⟨LogRecord.debugLevel, logSource, message⟩], .ok [readFinding lines e])
  | .error (.fault fault) => (s, [], .error fault)
  | .ok tree =>
      let d := tree.toDatum
      match consult v uri d s with
      | (s, log, .error fault) => (s, log, .error fault)
      | (s, log, .ok issues) =>
          let (found, notes) := findings tree lines (Vocabulary.declared? d) issues
          (s, log ++ notes, .ok found)

/-- Lints a document and hands the findings to the sink. Nothing that goes wrong
gets out of it. -/
def run {σ : Type} (v : Validator σ) (sink : Sink) (exclude : List Text) (text uri : Text)
    (s : σ) : LintResult σ :=
  if isExcluded exclude uri then
    let message := ("lint: skipping excluded " : Text) ++ uri
    ⟨s, [], [], [⟨LogRecord.debugLevel, logSource, message⟩]⟩
  else
    let (s, log, result) := cycle v text uri s
    let (found, failed) : List Finding × List LogRecord := match result with
      | .ok found => (found, [])
      | .error _ =>
          let message := ("lint: cycle failed for " : Text) ++ uri ++ ":\n" ++ LogRecord.account
          ([], [⟨LogRecord.errorLevel, logSource, message⟩])
    let count := ("lint: " : Text) ++ uri ++ " → " ++ Text.ofNat found.length ++ " findings"
    let counted : LogRecord := ⟨LogRecord.debugLevel, logSource, count⟩
    let unsent : List LogRecord :=
      if sink = .failing then
        let message := ("lint: publishing diagnostics for " : Text) ++ uri ++ " failed\n"
          ++ LogRecord.account
        [⟨LogRecord.errorLevel, logSource, message⟩]
      else []
    ⟨s, found, if sink = .absent then [] else [found], log ++ failed ++ [counted] ++ unsent⟩

end Lint

end EdnLint
