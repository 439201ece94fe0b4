/-!
# Byte strings

Values, keys and terminators are byte strings. This module holds the two byte
classes and the cuts that the rest of the library is written with.
-/

set_option autoImplicit false

namespace FoldedIni

/-- A byte string. -/
abbrev Bytes := List UInt8

namespace Bytes

def space : UInt8 := 0x20

def tab : UInt8 := 0x09

/-- Blanks are the space and the tab. A line may be broken in front of one, and
a line that begins with one continues the line above it. -/
def isBlank (b : UInt8) : Bool := b == space || b == tab

/-- The bytes at the offsets from `start` up to, and not including, `stop`. -/
def slice (start stop : Nat) (s : Bytes) : Bytes := (s.drop start).take (stop - start)

/-- The first `n` bytes or items, all of them if there are fewer. A negative `n`
leaves off that many at the end. -/
def leading {α : Type} (n : Int) (s : List α) : List α :=
  if 0 ≤ n then s.take n.toNat else s.take (s.length - (-n).toNat)

@[simp] theorem slice_self (start : Nat) (s : Bytes) : slice start start s = [] := by
  simp [slice]

@[simp] theorem leading_length {α : Type} (s : List α) : leading s.length s = s := by
  simp [leading]

theorem leading_natCast {α : Type} (n : Nat) (s : List α) : leading n s = s.take n := by
  simp [leading]

end Bytes

end FoldedIni
