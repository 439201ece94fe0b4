import FoldedIni.Entry
import FoldedIni.Origin
import FoldedIni.Store.Table

/-!
# The store

Values, comment blocks and line pairs live in a store and refer to one another by
name. Several values may share a pair or a block, and a change of it shows in all
of them. A value built from its logical bytes has a pair of its own that no
register names.

An action on the store may fail part of the way, and then what it has done so far
stays done. Every operation of this module checks its arguments before it
writes, so only the two that have no checks, `foldInto` and `save`, can leave a
change behind, and only in a pair that lacks a list.
-/

set_option autoImplicit false

namespace FoldedIni

/-- Names a line pair: that of a register, or the one a value made for itself. -/
inductive PairRef where
  | register (name : String)
  | ofValue (name : String)
  deriving DecidableEq, Repr

def PairRef.name : PairRef → String
  | .register name => name
  | .ofValue name => name

/-- A value of one key: its logical bytes, the pair that holds its lines, and the
sizes by which it is folded. -/
structure Value where
  pair : PairRef
  content : Bytes
  origin : GivenOrigin
  line : Int
  keyLength : Int
  boundary : Int
  comment : Option String
  deriving Repr

def Value.layout (v : Value) : Layout := ⟨v.keyLength, v.boundary⟩

def Value.literal (v : Value) (lines : Nat) : String :=
  s!"ValueObject(value={v.content.quote}, lines={lines}, origin={v.origin.display}, " ++
    s!"line={v.line}, key_len={v.keyLength}, boundary={v.boundary})"

/-- Checks the sizes of a value: both are given, and neither is negative. -/
def checkSizes (keyLength boundary : Option Int) : Except ArgumentError Layout :=
  match keyLength with
  | none => .error (.invalidKeyLength none)
  | some k =>
    if k < 0 then .error (.invalidKeyLength k) else
    match boundary with
    | none => .error (.invalidBoundary none)
    | some b => if b < 0 then .error (.invalidBoundary b) else .ok ⟨k, b⟩

/-- All that is bound to a name. -/
structure Store where
  pairs : Table PairRef LinePair
  comments : Table String Comment
  values : Table String Value

namespace Store

def empty : Store := ⟨.empty, .empty, .empty⟩

/-- What runs on a store: it may fail, and the store it leaves is kept in any case. -/
abbrev Action := EStateM Failure Store

/-- Fails with the refusal of a check. -/
def check {α : Type} : Except ArgumentError α → Action α
  | .ok a => pure a
  | .error e => throw (.refused e)

def attempt {α : Type} : Except Failure α → Action α
  | .ok a => pure a
  | .error e => throw e

/-- The content bound to a name, which has to be bound. -/
def bound {α : Type} (name : String) : Option α → Action α
  | some a => pure a
  | none => throw (.unbound name)

def pair (r : PairRef) : Action LinePair := do bound r.name ((← get).pairs.get? r)

def setPair (r : PairRef) (p : LinePair) : Action Unit :=
  modify fun s => { s with pairs := s.pairs.insert r p }

def comment (name : String) : Action Comment := do bound name ((← get).comments.get? name)

def setComment (name : String) (c : Comment) : Action Unit :=
  modify fun s => { s with comments := s.comments.insert name c }

def value (name : String) : Action Value := do bound name ((← get).values.get? name)

def setValue (name : String) (v : Value) : Action Unit :=
  modify fun s => { s with values := s.values.insert name v }

/-- Adds one line, of which the first `length` bytes are kept. -/
def addLine (r : Option PairRef) (line : Datum) (length : Option Int) : Action Unit :=
  match r with
  | none => throw (.refused .missingLines)
  | some r => do
    let p ← pair r
    match p.lists? with
    | none => throw (.refused .missingLines)
    | some _ => setPair r (p.add (← check (ownedBytes "line" line length)))

def clearPair (r : PairRef) : Action Unit := do setPair r (← pair r).clear

/-- Adds one chunk as the last line. The lines come before the lengths, so a pair
without lengths keeps the line. -/
def save (r : PairRef) (chunk : Bytes) : Action Unit := do
  let p ← pair r
  if p.lines.isNone then throw .absentList
  setPair r (p.save chunk)
  if p.lengths.isNone then throw .absentList

/-- Folds a value into a pair. The lines are emptied before the lengths, so a pair
without lengths loses its lines. -/
def foldInto (r : PairRef) (layout : Layout) (s : Bytes) : Action Unit := do
  let p ← pair r
  if p.lines.isNone then throw .wrongType
  if p.lengths.isNone then
    setPair r p.clear
    throw .wrongType
  setPair r (p.refold layout s)

def unfoldPair (r : PairRef) : Action Bytes := do attempt (← pair r).unfold

def newComment (name : String) (lines : List Datum) : Action Unit := do
  setComment name (← check (Comment.ofData lines))

def addCommentLine (name : String) (line : Datum) : Action Unit := do
  setComment name (← check ((← comment name).add line))

def destroyComment (name : String) : Action Unit := do
  setComment name (← comment name).destroy

/-- Binds a value to the lines of a pair, which it keeps and shares. -/
def valueOfLines (name : String) (r : Option PairRef) (line : Int) (origin : GivenOrigin)
    (keyLength boundary : Option Int) (comment : Option String) : Action Unit := do
  let layout ← check (checkSizes keyLength boundary)
  match r with
  | none => throw (.refused .missingLines)
  | some r =>
    let p ← pair r
    match p.lists? with
    | none => throw (.refused .missingLines)
    | some (lines, lengths) =>
      if lines.length ≠ lengths.length then throw (.refused .unequalCounts)
      check (checkLines 0 lines lengths)
      let content ← attempt p.unfold
      setValue name ⟨r, content, origin, line, layout.keyLength, layout.boundary, comment⟩

def refold (name : String) : Action Unit := do
  let v ← value name
  foldInto v.pair v.layout v.content

/-- Binds a value to the first `length` bytes of a text or buffer and folds it into
a new pair. Its line in a file is not known and counts as nought. -/
def valueOfContent (name : String) (content : Datum) (length : Option Int) (origin : GivenOrigin)
    (keyLength boundary : Option Int) (comment : Option String) : Action Unit := do
  let layout ← check (checkSizes keyLength boundary)
  let s ← check (ownedBytes "value" content length)
  setPair (.ofValue name) .empty
  setValue name ⟨.ofValue name, s, origin, 0, layout.keyLength, layout.boundary, comment⟩
  refold name

/-- Replaces the content of a value, and its boundary if one is given. -/
def update (name : String) (content : Datum) (length : Option Int) (origin : GivenOrigin)
    (boundary : Option Int) : Action Unit := do
  let v ← value name
  if boundary.isSome then
    let _ ← check (checkSizes (some v.keyLength) boundary)
  let s ← check (ownedBytes "value" content length)
  setValue name { v with content := s, origin := origin, boundary := boundary.getD v.boundary }
  refold name

def setKeyLength (name : String) (keyLength : Option Int) : Action Unit := do
  let v ← value name
  let layout ← check (checkSizes keyLength (some v.boundary))
  setValue name { v with keyLength := layout.keyLength }
  refold name

def extractComment (name : String) : Action (Option String) := do
  let v ← value name
  setValue name { v with comment := none }
  return v.comment

/-- Gives a comment block to a value. A different block that it held is destroyed. -/
def putComment (name : String) (given : Option String) : Action Unit := do
  match given with
  | none => throw (.refused .missingComment)
  | some given =>
    let v ← value name
    let _ ← comment given
    match v.comment with
    | none => pure ()
    | some held => if held ≠ given then destroyComment held
    setValue name { v with comment := some given }

/-- Releases the lines, the content and the comment block of a value. -/
def destroy (name : String) : Action Unit := do
  let v ← value name
  clearPair v.pair
  setValue name { v with content := [], comment := none }
  match v.comment with
  | none => pure ()
  | some held => destroyComment held

def serialize (name : Option String) (key terminator : Datum) : Action Bytes :=
  match name with
  | none => throw (.refused .missingValue)
  | some name => do
    let v ← value name
    let held ← v.comment.mapM comment
    attempt (Entry.serialize held key v.keyLength (← pair v.pair) terminator)

def literal (name : String) : Action String := do
  let v ← value name
  return v.literal ((← pair v.pair).lines.getD []).length

end Store

end FoldedIni
