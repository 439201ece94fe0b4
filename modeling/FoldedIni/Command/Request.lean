import FoldedIni.Command.Options
import FoldedIni.Command.Usage

/-!
# Requests

What a command line asks the program to do. A request for help or for the version
is met at once, whatever else the words ask for behind it.
-/

set_option autoImplicit false

namespace FoldedIni.Command

structure FoldRequest where
  value : String
  key : String
  boundary : Option Int
  comments : List String
  config : Option String
  deriving DecidableEq, Repr

structure UnfoldRequest where
  lines : List String
  line : Int
  deriving DecidableEq, Repr

inductive Task where
  | fold (r : FoldRequest)
  | unfold (r : UnfoldRequest)
  deriving DecidableEq, Repr

/-- Why a command line asks for no task. -/
inductive Halt where
  | help (p : Page)
  | version
  | wrong (p : Page) (e : UsageError)
  deriving DecidableEq, Repr

def helpOption : OptionSpec := ⟨["-h", "--help"], false, false⟩

def versionOption : OptionSpec := ⟨["-v", "--version"], false, false⟩

def verboseOption : OptionSpec := ⟨["--verbose"], false, false⟩

def keyOption : OptionSpec := ⟨["--key"], true, true⟩

def boundaryOption : OptionSpec := ⟨["--boundary"], true, false⟩

def commentOption : OptionSpec := ⟨["--comment"], true, false⟩

def configOption : OptionSpec := ⟨["--config"], true, false⟩

def lineOption : OptionSpec := ⟨["--line"], true, false⟩

/-- The commands by their names. -/
def commands : List (String × Page) := [("fold", .fold), ("unfold", .unfold)]

/-- What each page accepts. The program itself need not be given a command. -/
def Page.grammar : Page → Grammar
  | .program => ⟨[helpOption, versionOption, verboseOption], "Command", .rest, false⟩
  | .fold =>
    ⟨[helpOption, keyOption, boundaryOption, commentOption, configOption], "value", .one, true⟩
  | .unfold => ⟨[helpOption, lineOption], "lines", .oneOrMore, true⟩

def integerOf (p : Page) (o : OptionSpec) (value : String) : Except Halt Int :=
  match Number.integer? value with
  | some n => .ok n
  | none => .error (.wrong p (.notInteger o.title value))

/-- The fold request with one more use. -/
def FoldRequest.use (r : FoldRequest) : Use → Except Halt FoldRequest
  | .place values => .ok { r with value := values.headD "" }
  | .option o value =>
    let value := value.getD ""
    if o = helpOption then .error (.help .fold)
    else if o = keyOption then .ok { r with key := value }
    else if o = commentOption then .ok { r with comments := r.comments ++ [value] }
    else if o = configOption then .ok { r with config := some value }
    else do return { r with boundary := some (← integerOf .fold o value) }

/-- The unfold request with one more use. -/
def UnfoldRequest.use (r : UnfoldRequest) : Use → Except Halt UnfoldRequest
  | .place values => .ok { r with lines := values }
  | .option o value =>
    if o = helpOption then .error (.help .unfold)
    else do return { r with line := ← integerOf .unfold o (value.getD "") }

/-- The words that a command has left over, unless they are wrong. -/
def leftover (p : Page) (parsed : Parsed) : Except Halt (List String) :=
  parsed.finish.mapError (.wrong p)

/-- Reads the words of a command: its task, and the words left over. -/
def readTask (p : Page) (words : List String) : Except Halt (Option Task × List String) := do
  let parsed := p.grammar.parse words
  match p with
  | .fold =>
    let r ← parsed.uses.foldlM FoldRequest.use ⟨"", "", none, [], none⟩
    return (some (.fold r), ← leftover p parsed)
  | .unfold =>
    let r ← parsed.uses.foldlM UnfoldRequest.use ⟨[], 1⟩
    return (some (.unfold r), ← leftover p parsed)
  | .program => return (none, ← leftover p parsed)

/-- What the words in front of a command and the command ask for. -/
structure Request where
  verbose : Bool
  task : Option Task
  left : List String

/-- The request with one more use. -/
def Request.use (r : Request) : Use → Except Halt Request
  | .option o _ =>
    if o = helpOption then .error (.help .program)
    else if o = versionOption then .error .version
    else .ok { r with verbose := true }
  | .place words =>
    let name := words.headD ""
    match commands.lookup name with
    | none =>
      .error (.wrong .program
        (.noSuchCommand Page.program.grammar.place name (commands.map (·.1))))
    | some p => do
      let (task, left) ← readTask p words.tail
      return { r with task, left }

/-- Reads a command line: whether to be verbose, and the task if there is one. -/
def read (words : List String) : Except Halt (Bool × Option Task) := do
  let parsed := Page.program.grammar.parse words
  let r ← parsed.uses.foldlM Request.use ⟨false, none, []⟩
  match (← leftover .program parsed) ++ r.left with
  | [] => return (r.verbose, r.task)
  | left => throw (.wrong .program (.unrecognized left))

end FoldedIni.Command
