import FoldedIni.Entry
import FoldedIni.Origin
import FoldedIni.Text.Lowercase

/-!
# Settings

The settings of a folding session: the boundary, the terminator behind every
written row, and the origin of new values. They are read from a map, in which
each setting may stand under its own name and nothing else may stand.

A refusal tells a name with half a character in it by its literal.
-/

set_option autoImplicit false

namespace FoldedIni

structure Settings where
  boundary : Int
  terminator : AnyText
  origin : Origin
  deriving DecidableEq, Repr

inductive SettingsError where
  | unknown (names : List String)
  /-- A name that is no text can be neither known nor listed. -/
  | unlistable
  | boundary (given : Datum)
  | terminator
  | origin (given : AnyText)
  deriving Repr

def SettingsError.message? : SettingsError → Option String
  | .unknown names => "Unknown settings: " ++ ", ".intercalate names
  | .unlistable => none
  | .boundary given => s!"boundary must be a non-negative integer, got {given.literal}"
  | .terminator => "line_terminator must be a non-empty string"
  | .origin given => s!"origin must be one of ['created', 'read'], got {given.literal}"

namespace Settings

def default : Settings := ⟨defaultBoundary, "\n", .created⟩

/-- The bytes of the terminator, if it has any: nothing asks for them when it is read. -/
def terminatorBytes? (s : Settings) : Option Bytes := s.terminator.bytes?

def literal (s : Settings) : String :=
  s!"FoldSettings(boundary={s.boundary}, line_terminator={s.terminator.literal}, " ++
    s!"origin=<ValueOrigin.{s.origin.name}: {s.origin.code}>)"

def names : List String := ["boundary", "line_terminator", "origin"]

/-- What stands in a map under a name. -/
def lookup (name : String) : List (Datum × Datum) → Option Datum
  | [] => none
  | (.text k, v) :: rest => if k = name then some v else lookup name rest
  | _ :: rest => lookup name rest

/-- The names in a map that are no setting, if all of them are texts. -/
def strangers : List (Datum × Datum) → Except SettingsError (List String)
  | [] => .ok []
  | (.text k, _) :: rest => do
    let found ← strangers rest
    return if names.contains k then found else k :: found
  | (.halved signs, _) :: rest => do return (AnyText.halved signs).shown :: (← strangers rest)
  | _ :: _ => .error .unlistable

/-- Reads the boundary, a number that is not negative. -/
def readBoundary : Datum → Except SettingsError Int
  | .int n => if n < 0 then .error (.boundary (.int n)) else .ok n
  | d => .error (.boundary d)

/-- Reads the terminator, a text that is not empty. -/
def readTerminator : Datum → Except SettingsError AnyText
  | .text s => if s = "" then .error .terminator else .ok s
  | .halved signs => .ok (.halved signs)
  | _ => .error .terminator

/-- Reads the origin by its name in any case. -/
def readOrigin (d : Datum) : Except SettingsError Origin :=
  let given := d.display.lowercase
  if given = "read" then .ok .read
  else if given = "created" then .ok .created
  else .error (.origin given)

def readOr {α : Type} (default : α) (read : Datum → Except SettingsError α) :
    Option Datum → Except SettingsError α
  | none => .ok default
  | some d => read d

/-- Reads settings from a map. The unknown names are refused first, in order, and
then the settings one after the other. -/
def ofMap (entries : List (Datum × Datum)) : Except SettingsError Settings := do
  let unknown ← strangers entries
  if unknown ≠ [] then throw (.unknown (unknown.mergeSort fun a b => decide (a ≤ b)))
  let boundary ← readOr default.boundary readBoundary (lookup "boundary" entries)
  let terminator ← readOr default.terminator readTerminator (lookup "line_terminator" entries)
  let origin ← readOr default.origin readOrigin (lookup "origin" entries)
  return ⟨boundary, terminator, origin⟩

end Settings

end FoldedIni
