import EdnLint.Text.Quoted

/-!
# The options of the command line

What the program can be asked for, how each option is written and how many words it
takes, the texts that explain them, and what is wrong with a command line that is
refused.
-/

namespace EdnLint

namespace CommandLine

/-- The name of the program. -/
def program : Text := "zenlsp"

/-- An option. -/
inductive Switch where
  | help
  | stdio
  | tcp
  | check
  | paths
  | version
  | logLevel
  deriving DecidableEq, Repr

/-- How many words an option takes. -/
inductive Arity where
  | none
  | one
  | many
  deriving DecidableEq, Repr

namespace Switch

/-- All options, in the order in which they are explained. -/
def all : List Switch := [.help, .stdio, .tcp, .check, .paths, .version, .logLevel]

/-- The option as it is written in full. -/
def long : Switch → Text
  | .help => "--help"
  | .stdio => "--stdio"
  | .tcp => "--tcp"
  | .check => "--check"
  | .paths => "--paths"
  | .version => "--version"
  | .logLevel => "--log-level"

/-- The option as errors name it: with its short form, if it has one. -/
def label : Switch → Text
  | .help => "-h/--help"
  | s => s.long

/-- How many words the option takes. -/
def arity : Switch → Arity
  | .help | .stdio | .version => .none
  | .tcp | .logLevel => .one
  | .check | .paths => .many

end Switch

/-- The levels that `--log-level` can be set to. -/
def levelChoices : List Text := ["DEBUG", "INFO", "WARNING", "ERROR", "CRITICAL"]

/-- Why a command line is refused. -/
inductive UsageError where
  | ambiguous (word : Text) (candidates : List Switch)
  | missing (s : Switch)
  | unexpected (s : Switch) (value : Text)
  | notInteger (s : Switch) (value : Text)
  | notChoice (s : Switch) (value : Text)
  | conflict (s other : Switch)
  | unrecognized (words : List Text)
  deriving DecidableEq, Repr

namespace UsageError

/-- An error that concerns one option. -/
def about (s : Switch) (message : Text) : Text := ("argument " : Text) ++ s.label ++ ": " ++ message

/-- The words for an error. -/
def message : UsageError → Text
  | .ambiguous word candidates =>
      ("ambiguous option: " : Text) ++ word ++ " could match "
        ++ Text.join ", " (candidates.map Switch.long)
  | .missing s =>
      about s (if s.arity = .many then "expected at least one argument" else "expected one argument")
  | .unexpected s value => about s (("ignored explicit argument " : Text) ++ value.quoted)
  | .notInteger s value => about s (("invalid int value: " : Text) ++ value.quoted)
  | .notChoice s value =>
      about s (("invalid choice: " : Text) ++ value.quoted ++ " (choose from "
        ++ Text.join ", " (levelChoices.map Text.quoted) ++ ")")
  | .conflict s other => about s (("not allowed with argument " : Text) ++ other.label)
  | .unrecognized words => ("unrecognized arguments: " : Text) ++ Text.join " " words

end UsageError

/-- Lines, each with its end. -/
def unlines (lines : List Text) : Text := lines.flatMap fun line => line ++ ("\n" : Text)

/-- How the program is called. -/
def usage : Text :=
  unlines
    ["usage: zenlsp [-h] [--stdio | --tcp PORT | --check FILE [FILE ...]]",
     "              [--paths DIR [DIR ...]] [--version] [--log-level LEVEL]"]

/-- What the program does and how it is called. -/
def helpText : Text :=
  usage ++ unlines
    ["",
     "Language server that reports zen schema errors in .edn files.",
     "",
     "options:",
     "  -h, --help            show this help message and exit",
     "  --stdio               Serve LSP over stdin/stdout (default)",
     "  --tcp PORT            Serve LSP on 127.0.0.1:PORT",
     "  --check FILE [FILE ...]",
     "                        Lint FILE(s) once, print findings and exit non-zero if",
     "                        there are any",
     "  --paths DIR [DIR ...]",
     "                        Directories to preload namespaces from (with --check;",
     "                        added to zen.edn :paths)",
     "  --version             Print the zenlsp version and exit",
     "  --log-level LEVEL     Logging level written to stderr (default: WARNING)"]

/-- How the call was and why it is refused. -/
def refusal (e : UsageError) : Text :=
  usage ++ unlines [program ++ ": error: " ++ e.message]

end CommandLine

end EdnLint
