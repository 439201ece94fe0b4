import FoldedIni.LinePair

/-!
# Comment blocks

The comment lines above a key, without their terminators. A destroyed block holds
no lines and refuses every use.
-/

set_option autoImplicit false

namespace FoldedIni

/-- A block of comment lines. -/
structure Comment where
  lines : List Bytes
  destroyed : Bool
  deriving DecidableEq, Repr

namespace Comment

def empty : Comment := ⟨[], false⟩

/-- Refuses a destroyed block. -/
def live (c : Comment) : Except ArgumentError (List Bytes) :=
  if c.destroyed then .error .destroyedComment else .ok c.lines

def add (c : Comment) (line : Datum) : Except ArgumentError Comment := do
  let lines ← c.live
  let s ← ownedBytes "comment line" line none
  return { c with lines := lines ++ [s] }

def ofData (lines : List Datum) : Except ArgumentError Comment :=
  lines.foldlM add empty

def count (c : Comment) : Except ArgumentError Nat := do return (← c.live).length

/-- The line at `index`, counted from nought. -/
def get (c : Comment) (index : Int) : Except ArgumentError Bytes := do
  let lines ← c.live
  if index < 0 then .error (.noCommentLine index lines.length)
  else match lines[index.toNat]? with
    | some line => .ok line
    | none => .error (.noCommentLine index lines.length)

def destroy (_ : Comment) : Comment := ⟨[], true⟩

def literal (c : Comment) : String :=
  let lines := (Datum.list (c.lines.map .ofBytes)).literal
  s!"IniComment(lines={lines}, destroyed={(Datum.bool c.destroyed).literal})"

end Comment

end FoldedIni
