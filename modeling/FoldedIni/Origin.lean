import FoldedIni.Datum

/-!
# Origins

A value is read from a file, where it stands on a line, or created in memory.
-/

set_option autoImplicit false

namespace FoldedIni

inductive Origin where
  | read
  | created
  deriving DecidableEq, Repr

namespace Origin

def name : Origin → String
  | .read => "READ"
  | .created => "CREATED"

def code : Origin → Nat
  | .read => 0
  | .created => 1

end Origin

/-- An origin as a caller gave it: nothing checks that it is one. -/
inductive GivenOrigin where
  | known (o : Origin)
  | other (d : Datum)
  deriving Repr

/-- The origin as it is shown to a reader. -/
def GivenOrigin.display : GivenOrigin → String
  | .known o => o.name
  | .other d => d.display.shown

end FoldedIni
