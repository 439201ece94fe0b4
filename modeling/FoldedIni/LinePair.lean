import FoldedIni.Error
import FoldedIni.Fold.Basic
import FoldedIni.Text.Utf8

/-!
# Line pairs

The physical lines of a value are kept in two parallel lists, the lines and how
many bytes of each count. A pair that the library builds has equally many entries
in both, and each length is that of its line. A pair made by hand may hold
anything, or lack a list, so what uses a pair checks what it needs.
-/

set_option autoImplicit false

namespace FoldedIni

/-- Reads a value given as a text or a byte buffer, and keeps its first `length`
bytes. `what` names the value in refusals. -/
def ownedBytes (what : String) (value : Datum) (length : Option Int) :
    Except ArgumentError Bytes := do
  let all ← match value with
    | .null => .error (.missing what)
    | .text s => .ok (Text.utf8 s)
    | .halved _ => .error .unencodable
    | .bytes _ s => .ok s
    | .view parts _ => .ok parts.flatten
    | d => .error (.notBytes what d.typeName)
  match length with
  | none => .ok all
  | some n =>
    if n < 0 || all.length < n then .error (.lengthOutOfRange what n all.length)
    else .ok (all.take n.toNat)

/-- Checks the line and the length at `index`: a buffer or a view, and an integer
within its items. -/
def checkLine (line length : Datum) (index : Int) : Except ArgumentError Unit :=
  match line.size? with
  | none => .error (.lineNotBytes index line.typeName)
  | some size =>
    match length.integer? with
    | none => .error (.lengthNotInteger index length)
    | some n =>
      if n < 0 || size < n then .error (.lineLengthOutOfRange index n size)
      else .ok ()

/-- Checks the lines and lengths from `index` on, in order. -/
def checkLines (index : Nat) : List Datum → List Datum → Except ArgumentError Unit
  | line :: lines, length :: lengths => do
    checkLine line length index
    checkLines (index + 1) lines lengths
  | _, _ => .ok ()

/-- A pair of parallel lists. Either may be missing. -/
structure LinePair where
  lines : Option (List Datum)
  lengths : Option (List Datum)
  deriving Repr

namespace LinePair

def empty : LinePair := ⟨some [], some []⟩

def ofLines (lines : List Bytes) : LinePair :=
  ⟨some (lines.map .ofBytes), some (lines.map fun line => .int line.length)⟩

def lists? (p : LinePair) : Option (List Datum × List Datum) :=
  match p.lines, p.lengths with
  | some lines, some lengths => some (lines, lengths)
  | _, _ => none

/-- The first items of a line that a length lets count. No length lets all count, and
a truth value stands for nought or one. -/
def cut? {α : Type} (items : List α) : Datum → Option (List α)
  | .null => some items
  | .bool b => some (items.take b.toNat)
  | .int n => some (Bytes.leading n items)
  | _ => none

/-- The bytes of a line that a length lets count. Items that lie apart cannot be
joined, unless just one of them counts. -/
def part? (line length : Datum) : Option Bytes :=
  match line with
  | .bytes _ s => cut? s length
  | .view parts adjacent =>
    (cut? parts length).bind fun cut =>
      if adjacent || cut.length == 1 then some cut.flatten else none
  | _ => none

/-- The part of each line that counts. The shorter list ends the walk. -/
def parts : List Datum → List Datum → Except Failure (List Bytes)
  | line :: lines, length :: lengths =>
    match part? line length with
    | none => .error .wrongType
    | some part => do return part :: (← parts lines lengths)
  | _, _ => .ok []

def counted (p : LinePair) : Except Failure (List Bytes) :=
  match p.lists? with
  | none => .error .wrongType
  | some (lines, lengths) => parts lines lengths

def unfold (p : LinePair) : Except Failure Bytes := do return (← p.counted).flatten

def clear (p : LinePair) : LinePair := ⟨p.lines.map fun _ => [], p.lengths.map fun _ => []⟩

def add (p : LinePair) (line : Bytes) : LinePair :=
  ⟨p.lines.map (· ++ [.ofBytes line]), p.lengths.map (· ++ [.int line.length])⟩

theorem add_ofLines (lines : List Bytes) (line : Bytes) :
    (ofLines lines).add line = ofLines (lines ++ [line]) := by
  simp [add, ofLines]

/-- Adds a chunk as the last line, marked unless it is the first. -/
def save (p : LinePair) (chunk : Bytes) : LinePair :=
  p.add (Fold.lineBelow (p.lines.getD []) chunk)

theorem save_linesOf (chunks : List Bytes) (chunk : Bytes) :
    (ofLines (Fold.linesOf chunks)).save chunk = ofLines (Fold.linesOf (chunks ++ [chunk])) := by
  have hbelow : Fold.lineBelow ((Fold.linesOf chunks).map Datum.ofBytes) chunk =
      Fold.lineBelow chunks chunk := by
    cases chunks <;> rfl
  rw [Fold.linesOf_concat, ← add_ofLines, ← hbelow]
  rfl

/-- Chunks that are saved one after the other become the lines of them all. -/
theorem foldl_save (above chunks : List Bytes) :
    chunks.foldl save (ofLines (Fold.linesOf above)) =
      ofLines (Fold.linesOf (above ++ chunks)) := by
  induction chunks generalizing above with
  | nil => rw [List.append_nil]; rfl
  | cons chunk rest ih => rw [List.foldl_cons, save_linesOf, ih, List.append_assoc]; rfl

/-- The lines of the value `s` take the place of what the lists hold. -/
def refold (p : LinePair) (layout : Layout) (s : Bytes) : LinePair :=
  let folded := ofLines (FoldedIni.fold layout s)
  ⟨p.lines.bind fun _ => folded.lines, p.lengths.bind fun _ => folded.lengths⟩

/-- Two lists hold after a fold what saving the chunks one by one in the emptied lists
leaves. -/
theorem refold_eq_foldl_save (lines lengths : List Datum) (layout : Layout) (s : Bytes) :
    refold ⟨some lines, some lengths⟩ layout s =
      (Fold.chunks layout s).foldl save (clear ⟨some lines, some lengths⟩) :=
  (foldl_save [] (Fold.chunks layout s)).symm

end LinePair

end FoldedIni
