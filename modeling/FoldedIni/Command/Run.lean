import FoldedIni.Command.Request
import FoldedIni.Display.Screen
import FoldedIni.Settings.File
import FoldedIni.Store.Step

/-!
# Running the program

A run takes the words of a command line and comes to an exit status and the texts for
the two streams. What it finds outside is handed to it: the screen, the reader of
documents, and what stands under a path. Folding shows the lines of a value in a table
and the written entry in a panel; unfolding shows the lines and the value. A negative
boundary is refused after the settings are loaded.

The words are whole texts. What has been shown before a run breaks off is left out,
and a run is not interrupted.
-/

set_option autoImplicit false

namespace FoldedIni.Command

open Display

structure Outcome where
  status : Nat
  out : String
  err : String
  deriving DecidableEq, Repr

/-- Why a run breaks off without an error message of its own. -/
inductive Fault where
  | settings (e : LoadError)
  /-- A text ends a style that it has not begun. -/
  | markup
  /-- A text names a style that cannot be drawn. -/
  | style
  /-- Half a character stands in the terminator. -/
  | unencodable
  | store (f : Failure)
  deriving Repr

/-- The run breaks off because something cannot be shown. -/
def Fault.IsDisplay : Fault → Prop
  | .markup | .style => True
  | _ => False

/-- The status that the process ends with: one, if the run breaks off. -/
def exitStatus : Except Fault Outcome → Nat
  | .ok outcome => outcome.status
  | .error _ => 1

variable (screen : Screen) (reader : String → Except Yaml.Fault Datum)

def shown (markup : String) : Except Fault (List Char) :=
  match screen.shown? markup with
  | some s => if screen.Harmless markup then .ok s else .error .style
  | none => .error .markup

def rowOf (index : Nat) (line length : Datum) : Except Fault Row := do
  return ⟨← shown screen (toString index), ← shown screen length.literal,
    ← shown screen line.literal⟩

def rowsFrom (index : Nat) : List (Datum × Datum) → Except Fault (List Row)
  | [] => .ok []
  | (line, length) :: rest => do
    let row ← rowOf screen index line length
    return row :: (← rowsFrom (index + 1) rest)

/-- The entries of a pair, line by line. -/
def entriesOf (p : LinePair) : List (Datum × Datum) :=
  match p.lists? with
  | none => []
  | some (lines, lengths) => lines.zip lengths

def showLines (title : String) (p : LinePair) : Except Fault (List (List Char)) := do
  let title ← shown screen title
  let rows ← rowsFrom screen 0 (entriesOf p)
  return screen.table title rows

def showError (message : String) : Except Fault String := do
  return printLines (screen.message (← shown screen ("Error: " ++ message)))

/-- Ends a run whose action failed: with an error message if an argument was refused. -/
def fail (err : String) : Failure → Except Fault Outcome
  | .refused .unencodable => .error .unencodable
  | .refused e => do return ⟨1, ← showError screen e.message, err⟩
  | f => .error (.store f)

def perform {α : Type} (action : Store.Action α) : Except Failure α :=
  match action Store.empty with
  | .ok a _ => .ok a
  | .error e _ => .error e

/-! ## Folding -/

/-- Binds the comment block of a fold, if there are comments. -/
def commentAction (r : FoldRequest) : Store.Action (Option String) :=
  if r.comments.isEmpty then pure none else do
    Store.newComment "comment" (r.comments.map .text)
    return some "comment"

def bindAction (r : FoldRequest) (s : Settings) : Store.Action LinePair := do
  let comment ← commentAction r
  Store.valueOfContent "value" (.text r.value) none (.known s.origin)
    (some (Text.utf8 r.key).length) (some s.boundary) comment
  Store.pair (.ofValue "value")

/-- Folds a value and writes it under its key: the pair of its lines, and the entry. -/
def foldAction (r : FoldRequest) (s : Settings) (terminator : Bytes) :
    Store.Action (LinePair × Bytes) := do
  let pair ← bindAction r s
  let entry ← Store.serialize (some "value") (.ofBytes (Text.utf8 r.key)) (.ofBytes terminator)
  Store.destroy "value"
  return (pair, entry)

/-- The settings file of a fold. An empty path is no file. -/
def FoldRequest.settingsPath? (r : FoldRequest) : Option String :=
  r.config.filter (· != "")

/-- The settings of a fold, and the events of loading them. -/
def settingsOf (find : String → Found) (r : FoldRequest) :
    List Event × Except LoadError Settings :=
  match r.settingsPath? with
  | none => ([], .ok .default)
  | some path => Settings.loadWith reader find path

def foldEvents (r : FoldRequest) (boundary : Int) (lines : List Bytes) (entry : Bytes) :
    List Event :=
  Fold.events ⟨(Text.utf8 r.key).length, boundary⟩ (Text.utf8 r.value) ++
    lines.map (fun line => .written line line.length) ++ [.entry entry]

def showFold (r : FoldRequest) (s : Settings) (p : LinePair) : Except Fault (List (List Char)) :=
  showLines screen s!"{r.key} @ boundary {s.boundary}" p

/-- Folds with settings that are loaded. The lines are shown before the bytes of the
terminator are asked for. -/
def runFold (verbose : Bool) (r : FoldRequest) (loaded : List Event) (s : Settings) :
    Except Fault Outcome :=
  match s.terminatorBytes? with
  | none =>
    match perform (bindAction r s) with
    | .error f => fail screen (Event.journal verbose loaded) f
    | .ok pair => do
      let _ ← showFold screen r s pair
      throw .unencodable
  | some terminator =>
    match perform (foldAction r s terminator) with
    | .error f => fail screen (Event.journal verbose loaded) f
    | .ok (pair, entry) => do
      let lines := ((pair.lines.getD []).filterMap Datum.buffer?)
      let shownLines ← showFold screen r s pair
      let title ← shown screen s!"Serialized: {r.key}"
      let page := screen.listing title (Text.decodeLossy entry).toList
      let events := loaded ++ foldEvents r s.boundary lines entry
      return ⟨0, printLines (shownLines ++ page), Event.journal verbose events⟩

def loadAndFold (find : String → Found) (verbose : Bool) (r : FoldRequest) :
    Except Fault Outcome :=
  let (events, loaded) := settingsOf reader find r
  let err := Event.journal verbose events
  match loaded with
  | .error e =>
    match e.message? with
    | some message => do return ⟨1, ← showError screen message, err⟩
    | none => .error (.settings e)
  | .ok s =>
    match r.boundary with
    | none => runFold screen verbose r events s
    | some b =>
      if b < 0 then
        .ok ⟨2, "", err ++ Page.program.error UsageError.negativeBoundary.message⟩
      else runFold screen verbose r events { s with boundary := b }

/-! ## Unfolding -/

def unfoldAction (r : UnfoldRequest) : Store.Action (LinePair × Bytes) := do
  Store.setPair (.register "lines") .empty
  r.lines.forM fun line => Store.addLine (some (.register "lines")) (.text line) none
  Store.valueOfLines "value" (some (.register "lines")) r.line (.known .read) (some 0)
    (some defaultBoundary) none
  let pair ← Store.pair (.register "lines")
  let v ← Store.value "value"
  Store.destroy "value"
  return (pair, v.content)

def runUnfold (verbose : Bool) (r : UnfoldRequest) : Except Fault Outcome :=
  match perform (unfoldAction r) with
  | .error f => fail screen "" f
  | .ok (pair, content) => do
    let lines := ((pair.lines.getD []).filterMap Datum.buffer?)
    let events := lines.map (fun line => Event.joined line line.length) ++ [.unfolded content]
    let shownLines ← showLines screen "Physical Lines" pair
    let title ← shown screen s!"Unfolded value ({content.length} bytes)"
    let page := screen.panel title (← shown screen content.quote)
    return ⟨0, printLines (shownLines ++ page), Event.journal verbose events⟩

/-! ## The program -/

/-- The settings file that a run looks for, if it gets so far. -/
def settingsPath? (words : List String) : Option String :=
  match read words with
  | .ok (_, some (.fold r)) => r.settingsPath?
  | _ => none

/-- What is shown when the program is called without a word. -/
def greeting : String :=
  printLines (screen.banner "INI Value Folding".toList s!"IniFold v{version}".toList) ++
    Page.program.help

def runWith (find : String → Found) (words : List String) : Except Fault Outcome :=
  if words.isEmpty then .ok ⟨0, greeting screen, ""⟩ else
  match read words with
  | .error (.help p) => .ok ⟨0, p.help, ""⟩
  | .error .version => .ok ⟨0, s!"{programName} v{version}\n", ""⟩
  | .error (.wrong p e) => .ok ⟨2, "", p.error e.message⟩
  | .ok (_, none) => .ok ⟨0, Page.program.help, ""⟩
  | .ok (verbose, some (.fold r)) => loadAndFold screen reader find verbose r
  | .ok (verbose, some (.unfold r)) => runUnfold screen verbose r

/-- Runs the program on a simple screen, with the reader of documents of this library. -/
def run : (String → Found) → List String → Except Fault Outcome := runWith .simple Yaml.read

end FoldedIni.Command
