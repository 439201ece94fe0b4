import FoldedIni.Bytes

/-!
# How much room a line has

The first line of a value shares its row with the key and the separator, so its
room is what they leave of the boundary. Every later line has the whole boundary.
A boundary below nought, which no check lets through, counts as none.
-/

set_option autoImplicit false

namespace FoldedIni

def separator : Bytes := [0x20, 0x3D, 0x20]

/-- The column at which lines are broken unless a caller asks for another. -/
def defaultBoundary : Int := 80

/-- What a key of `keyLength` bytes and the separator leave of `boundary` columns:
nothing once they fill it. -/
def firstLineRoom (keyLength boundary : Int) : Nat :=
  (boundary - keyLength - separator.length).toNat

structure Layout where
  keyLength : Int
  boundary : Int
  deriving DecidableEq, Repr

namespace Layout

/-- The room of every line but the first. There is always one column to fold into. -/
def room (l : Layout) : Nat := max l.boundary.toNat 1

def firstRoom (l : Layout) : Nat := firstLineRoom l.keyLength l.room

end Layout

end FoldedIni
