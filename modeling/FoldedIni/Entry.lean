import FoldedIni.Comment

/-!
# Entries

An entry is written as its comment lines, then the key, the separator and the
lines of the value. Every comment line and every line of the value ends with the
terminator, and nothing else does.
-/

set_option autoImplicit false

namespace FoldedIni.Entry

/-- The bytes between two rows unless a caller asks for others. -/
def defaultTerminator : Bytes := [0x0A]

def rows (terminator : Bytes) (lines : List Bytes) : Bytes :=
  lines.flatMap (· ++ terminator)

def text (comment : List Bytes) (key : Bytes) (lines : List Bytes) (terminator : Bytes) : Bytes :=
  rows terminator comment ++ key ++ separator ++ rows terminator lines

/-- Reads the key under which a value with the given key length is written. -/
def readKey (key : Datum) (keyLength : Int) : Except ArgumentError Bytes := do
  let all ← ownedBytes "key" key none
  if all.length < keyLength then .error (.keyTooShort all.length keyLength)
  else .ok (Bytes.leading keyLength all)

def commentLines (comment : Option Comment) : Except ArgumentError (List Bytes) :=
  match comment with
  | none => .ok []
  | some c => c.live

/-- Writes an entry: `keyLength` bytes of the key are written, and of each line
of the pair what counts. -/
def serialize (comment : Option Comment) (key : Datum) (keyLength : Int) (pair : LinePair)
    (terminator : Datum) : Except Failure Bytes := do
  let (key, terminator, above) ← Except.mapError Failure.refused do
    let key ← readKey key keyLength
    let terminator ← ownedBytes "line terminator" terminator none
    let above ← commentLines comment
    return (key, terminator, above)
  return text above key (← pair.counted) terminator

end FoldedIni.Entry
