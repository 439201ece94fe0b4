import FoldedIni.Fold.Basic
import FoldedIni.Text.Quoted

/-!
# The journal

What the library does is told in a journal of events. Each event has a level, the
channel it is told on, and a message. Events of the debug level are told on
request only. The events are those of a run of the program.
-/

set_option autoImplicit false

namespace FoldedIni

inductive Level where
  | debug
  | error
  deriving DecidableEq, Repr

/-- Something the library did. -/
inductive Event where
  /-- A line of a fold was begun with this much room. -/
  | room (n : Nat)
  /-- A line of a fold was cut at this length. -/
  | cut (length : Nat)
  /-- A line was added. -/
  | stored (line : Bytes)
  /-- So many bytes were folded into so many lines. -/
  | folded (size lines : Nat)
  /-- A line and its length were read to unfold a value. -/
  | joined (line : Bytes) (length : Int)
  /-- The lines handed in stand for this value. -/
  | unfolded (content : Bytes)
  /-- A line and its length were written. -/
  | written (line : Bytes) (length : Int)
  /-- An entry was written. -/
  | entry (text : Bytes)
  | settingsMissing (path : String)
  | settingsMalformed (path : String)
  | settingsLoaded (path settings : String)
  deriving Repr

namespace Event

def level : Event → Level
  | .settingsMissing _ | .settingsMalformed _ => .error
  | _ => .debug

def channel : Event → String
  | .room _ | .cut _ | .stored _ | .folded _ _ => "inifold.folder"
  | .joined _ _ => "inifold.unfolder"
  | .unfolded _ => "inifold.value"
  | .written _ _ | .entry _ => "inifold.serializer"
  | .settingsMissing _ | .settingsMalformed _ | .settingsLoaded _ _ => "inifold.config"

def message : Event → String
  | .room n => s!"Best place: {n}"
  | .cut length => s!"Fold len: {length}"
  | .stored line => s!"Added string: {line.quote} Added number: {line.length}"
  | .folded size lines => s!"Folded {size} bytes into {lines} lines"
  | .joined line length | .written line length => s!"Value: {line.quote} Length: {length}"
  | .unfolded content => s!"Unfolded: {content.quote}"
  | .entry text => s!"Buffer: {text.quote}"
  | .settingsMissing path => s!"Settings file not found: {path}"
  | .settingsMalformed path => s!"Unable to parse settings from {path}"
  | .settingsLoaded path settings => s!"Loaded settings from {path}: {settings}"

def levelName : Level → String
  | .debug => "DEBUG"
  | .error => "ERROR"

def text (e : Event) : String := s!"{levelName e.level}:{e.channel}:{e.message}\n"

/-- The journal of some events; those of the debug level are in it if asked for. -/
def journal (verbose : Bool) (events : List Event) : String :=
  String.join ((events.filter fun e => verbose || e.level == .error).map text)

end Event

namespace Fold

/-- What a turn of a fold does, of which the lines become `lines`. -/
def Turn.events (t : Turn) (lines : List Bytes) : List Event :=
  let cut := match t.found with
    | .cut stop _ => [Event.cut (stop - t.start)]
    | .ended _ => []
  .room t.room :: cut ++ lines.map .stored

/-- What the turns do. The first chunk carries no mark. -/
def turnEvents (s : Bytes) (isFirst : Bool) : List Turn → List Event
  | [] => []
  | t :: rest =>
    let chunks := t.chunks s
    let lines := if isFirst then linesOf chunks else chunks.map marked
    t.events lines ++ turnEvents s false rest

def events (layout : Layout) (s : Bytes) : List Event :=
  turnEvents s true (turns layout s) ++ [.folded s.length (chunks layout s).length]

end Fold

end FoldedIni
