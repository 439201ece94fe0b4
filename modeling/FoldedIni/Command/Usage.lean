/-!
# Help texts

Each command has a page: a line of usage and what it accepts.
-/

set_option autoImplicit false

namespace FoldedIni.Command

def programName : String := "inifold"

def version : String := "1.0.0"

/-- The page of the program or of one of its commands. -/
inductive Page where
  | program
  | fold
  | unfold
  deriving DecidableEq, Repr

namespace Page

def name : Page → String
  | .program => programName
  | .fold => programName ++ " fold"
  | .unfold => programName ++ " unfold"

/-- The lines that say how the command is used. -/
def usage : Page → List String
  | .program => ["usage: inifold [-h] [-v] [--verbose] Command ..."]
  | .fold =>
    ["usage: inifold fold [-h] --key KEY [--boundary BOUNDARY] [--comment COMMENT]",
     "                    [--config CONFIG]",
     "                    value"]
  | .unfold => ["usage: inifold unfold [-h] [--line LINE] lines [lines ...]"]

/-- The lines below the usage. -/
def details : Page → List String
  | .program =>
    ["",
     "IniFold - lossless INI value folding",
     "",
     "positional arguments:",
     "  Command",
     "    fold         Fold a value under a key",
     "    unfold       Unfold physical lines into a value",
     "",
     "options:",
     "  -h, --help     show this help message and exit",
     "  -v, --version  show program's version number and exit",
     "  --verbose      Enable debug logging"]
  | .fold =>
    ["",
     "positional arguments:",
     "  value                Logical value to fold",
     "",
     "options:",
     "  -h, --help           show this help message and exit",
     "  --key KEY            Key the value belongs to",
     "  --boundary BOUNDARY  Column boundary (default: 80)",
     "  --comment COMMENT    Comment line to attach (repeatable)",
     "  --config CONFIG      YAML settings file"]
  | .unfold =>
    ["",
     "positional arguments:",
     "  lines        Physical lines, continuation lines included",
     "",
     "options:",
     "  -h, --help   show this help message and exit",
     "  --line LINE  Source line number of the key"]

def lines (l : List String) : String := String.join (l.map (· ++ "\n"))

def help (p : Page) : String := lines (p.usage ++ p.details)

/-- An error below the usage. -/
def error (p : Page) (message : String) : String :=
  lines (p.usage ++ [s!"{p.name}: error: {message}"])

end Page

end FoldedIni.Command
