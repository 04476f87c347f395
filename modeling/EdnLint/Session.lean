import EdnLint.Config
import EdnLint.Linter

/-!
# Sessions

A session is what the server knows between two events of a client: the linter, the
configuration, how much is logged, and who listens. `step` gives the reaction to an
event: what is published, what is told to the client, and the session afterwards.
Each event is finished before the next one, so a run of a session is a fold of
`step`.

The client's log takes nothing below the level of information, whatever the level
of the session is, and nothing of the server's own transport.
-/

namespace EdnLint

/-- How a log message is shown to the user. -/
inductive MessageKind where
  | error
  | warning
  | information
  | log
  deriving DecidableEq, Repr

namespace MessageKind

/-- The kind for the level of a record. -/
def ofLevel (level : Nat) : MessageKind :=
  if level = LogRecord.criticalLevel || level = LogRecord.errorLevel then .error
  else if level = LogRecord.warningLevel then .warning
  else if level = LogRecord.infoLevel then .information
  else .log

/-- The number of a kind in the editor's protocol. -/
def code : MessageKind → Nat
  | .error => 1
  | .warning => 2
  | .information => 3
  | .log => 4

end MessageKind

/-- A message to the client. -/
structure LogMessage where
  kind : MessageKind
  text : Text
  deriving DecidableEq, Repr

/-- The state of a server. -/
structure Session where
  linter : Linter
  config : Config
  /-- Records below this level are dropped. -/
  level : Nat
  /-- Whether log records are passed on to the client. -/
  listening : Bool
  /-- Whether the client can be reached with log messages; if not, they are lost. -/
  reachable : Bool
  /-- Whether documents are still linted. -/
  running : Bool
  deriving Repr

/-- What a client tells the server. -/
inductive Event where
  /-- The client names the root of the workspace and its own settings. -/
  | started (root : Option Text) (options : Json)
  /-- The client is ready for messages. -/
  | ready
  | opened (uri text : Text)
  /-- A document was changed; the last text is the whole of it. -/
  | changed (uri : Text) (texts : List Text)
  | closed (uri : Text)
  /-- The client's settings were changed. -/
  | configured (settings : Json)
  | shutDown
  /-- A part of the server logs a record. -/
  | logged (record : LogRecord)
  deriving Repr

/-- How a session reacts to an event. -/
structure Reaction where
  session : Session
  published : List (Text × List Finding)
  messages : List LogMessage
  fault : Option Fault
  deriving Repr

namespace Session

variable [Pattern.Engine]

/-- Who speaks in the log. -/
def logSource : Text := "zenlsp.server"

/-- The part of the server whose records are not passed on. -/
def transport : Text := "pygls"

/-- A server that has not heard from its client. -/
def fresh (reachable : Bool) : Session :=
  { linter := .fresh [] []
    config := .empty none
    level := LogRecord.warningLevel
    listening := false
    reachable := reachable
    running := true }

/-- Whether a record is passed on to the client. -/
def passes (s : Session) (r : LogRecord) : Bool :=
  s.level ≤ r.level && LogRecord.infoLevel ≤ r.level && !transport.isPrefixOf r.source

/-- The messages that log records make. -/
def messagesOf (s : Session) (log : List LogRecord) : List LogMessage :=
  if s.listening && s.reachable then
    (log.filter s.passes).map fun r => ⟨.ofLevel r.level, r.message⟩
  else []

/-- Nothing but a new state and what was logged. -/
def quiet (s : Session) (messages : List LogMessage) : Reaction := ⟨s, [], messages, none⟩

/-- Puts the configuration into effect. A level that has no such name is ignored. -/
def applyConfig (s : Session) : Session :=
  { s with
    linter := { s.linter with exclude := s.config.exclude }
    level := (s.config.logLevel.bind LogRecord.levelOf?).getD s.level }

/-- The client names the root of the workspace: its configuration is read, overridden
by the client's settings, and the namespaces it lists are loaded. -/
def start (t : FileTree) (root : Option Text) (options : Json) (s : Session) : Reaction :=
  let (log, loaded) := Config.load t (root.bind Uri.root?)
  let messages := s.messagesOf log
  match loaded with
  | .error fault => ⟨s, [], messages, some fault⟩
  | .ok config =>
      match config.applyClient options with
      | .error fault => ⟨{ s with config := config }, [], messages, some fault⟩
      | .ok config =>
          let s := { s with config := config }.applyConfig
          if config.paths.isEmpty then s.quiet messages
          else
            let (linter, log) := s.linter.preload t config.paths
            { s with linter := linter }.quiet (messages ++ s.messagesOf log)

/-- Lints a document and publishes what was found. -/
def lint (t : FileTree) (uri text : Text) (s : Session) : Reaction :=
  if s.running then
    let (linter, result) := s.linter.lint t .working text uri
    ⟨{ s with linter := linter }, result.published.map fun found => (uri, found),
      s.messagesOf result.log, none⟩
  else ⟨s, [], [], some .shutDown⟩

/-- Settings that hold nothing count as an object without members. -/
def holdsNothing : Json → Bool
  | .null => true
  | .bool b => !b
  | .int n => n == 0
  | .float x => x == .zero false || x == .zero true
  | .string t => t.isEmpty
  | .array items => items.isEmpty
  | .object members => members.isEmpty

/-- The section of the settings that is meant for the server; none if they are not
an object. -/
def ownSection? (settings : Json) : Option Json :=
  match settings with
  | .object _ => some ((settings.get? "zen").getD .null)
  | _ => if holdsNothing settings then some .null else none

/-- The client's settings were changed. -/
def configure (settings : Json) (s : Session) : Reaction :=
  match ownSection? settings with
  | none => s.quiet []
  | some own =>
      match s.config.applyClient own with
      | .error fault => ⟨s, [], [], some fault⟩
      | .ok config => { s with config := config }.applyConfig.quiet []

/-- A document was closed: what was published for it is taken back. -/
def close (uri : Text) (s : Session) : Reaction :=
  ⟨s, if Lint.isExcluded s.linter.exclude uri then [] else [(uri, [])], [], none⟩

/-- What the server says about itself. -/
def notice (s : Session) (message : Text) : List LogMessage :=
  s.messagesOf [⟨LogRecord.infoLevel, logSource, message⟩]

/-- The reaction to an event, with the files as they are. -/
def step (t : FileTree) (s : Session) : Event → Reaction
  | .started root options => s.start t root options
  | .ready =>
      let s := { s with listening := true }
      s.quiet (s.notice "zen-lsp language server loaded.")
  | .opened uri text => s.lint t uri text
  | .changed uri texts =>
      match texts.getLast? with
      | some text => s.lint t uri text
      | none => ⟨s, [], [], some .noText⟩
  | .closed uri => s.close uri
  | .configured settings => s.configure settings
  | .shutDown => { s with running := false }.quiet (s.notice "zen-lsp language server shutting down.")
  | .logged record => s.quiet (s.messagesOf [record])

/-- The reactions to events that follow one another. -/
def run (t : FileTree) (s : Session) : List Event → List Reaction
  | [] => []
  | e :: events =>
      let reaction := s.step t e
      reaction :: run t reaction.session events

@[simp] theorem run_nil (t : FileTree) (s : Session) : s.run t [] = [] := rfl

@[simp] theorem run_cons (t : FileTree) (s : Session) (e : Event) (events : List Event) :
    s.run t (e :: events) = s.step t e :: (s.step t e).session.run t events := rfl

end Session

end EdnLint
