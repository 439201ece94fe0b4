/-!
# Character ranges

A property of characters is kept as the ranges of code points that have it.
-/

set_option autoImplicit false

namespace FoldedIni.Text

/-- Ranges of code points, both ends included. -/
abbrev Ranges := List (Nat × Nat)

def Ranges.has (ranges : Ranges) (c : Char) : Bool :=
  ranges.any fun r => r.1 ≤ c.toNat && c.toNat ≤ r.2

end FoldedIni.Text
