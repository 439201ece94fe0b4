import FoldedIni.Store.Step

/-!
# Calls

A step takes its numbers as integers, and as none where one may be left out. A caller may
hand in anything in the place of a number. What is no number cannot be compared with one,
and this comes out at the check that compares it, after the checks that come before: the
sizes of a value are checked before its content, a length after the bytes it cuts, and the
index of a comment line after its block. Likewise the lines of a new comment block may be
anything that can be walked through.

A truth value is a number. So is a float, and it needs no case of its own where it fails: as
a length or an index it is refused out of range as an integer is, and within it fails as
what cannot be compared does, at the same check; as a size it is refused below nought. A
float that is accepted as a size is left out, since it would be computed with.
-/

set_option autoImplicit false

namespace FoldedIni

inductive GivenNumber where
  | absent
  | integer (n : Int)
  /-- Something that cannot be compared with a number. -/
  | incomparable
  deriving DecidableEq, Repr

namespace GivenNumber

/-- The number, or none if it was left out, as a check compares it. -/
def read? : GivenNumber → Option (Option Int)
  | .absent => some none
  | .integer n => some (some n)
  | .incomparable => none

@[simp] theorem read?_integer (n : Int) : (integer n).read? = some (some n) := rfl

end GivenNumber

/-- What a walk through a datum comes across. What counts as false has no items, whatever its
type. -/
def Datum.items? : Datum → Option (List Datum)
  | .null | .bool false | .int 0 | .float "0.0" | .float "-0.0" => some []
  | .text s => some (s.toList.map fun c => .text (String.singleton c))
  | .halved signs => some (signs.map fun sign => .ofText (.ofSigns [sign]))
  | .bytes _ s => some (s.map fun b => .int b.toNat)
  | .view parts _ => some (parts.map fun part => .int (part.foldr (fun b n => b.toNat + 256 * n) 0))
  | .list items => some items
  | .map entries => some (entries.map Prod.fst)
  | .bool true | .int _ | .float _ => none

/-- A step as it is called for. -/
inductive Call where
  | step (t : Step)
  | addLine (pair : Option String) (line : Datum) (length : GivenNumber)
  | newComment (comment : String) (lines : Datum)
  | commentLine (comment : String) (index : GivenNumber)
  | valueOfLines (value : String) (pair : Option String) (line : Int) (origin : GivenOrigin)
      (keyLength boundary : GivenNumber) (comment : Option String)
  | valueOfContent (value : String) (content : Datum) (length : GivenNumber) (origin : GivenOrigin)
      (keyLength boundary : GivenNumber) (comment : Option String)
  | update (value : String) (content : Datum) (length : GivenNumber) (origin : GivenOrigin)
      (boundary : GivenNumber)
  | setKeyLength (value : String) (keyLength : GivenNumber)
  deriving Repr

namespace Call

def step? : Call → Option Step
  | .step t => some t
  | .addLine p line length => do return .addLine p line (← length.read?)
  | .newComment c lines => do return .newComment c (← lines.items?)
  | .commentLine c index => do return .commentLine c (← (← index.read?))
  | .valueOfLines v p line origin keyLength boundary c => do
    return .valueOfLines v p line origin (← keyLength.read?) (← boundary.read?) c
  | .valueOfContent v content length origin keyLength boundary c => do
    return .valueOfContent v content (← length.read?) origin (← keyLength.read?)
      (← boundary.read?) c
  | .update v content length origin boundary => do
    return .update v content (← length.read?) origin (← boundary.read?)
  | .setKeyLength v keyLength => do return .setKeyLength v (← keyLength.read?)

end Call

namespace Store

/-- Compares the sizes of a value with nought, the key length before the boundary. -/
def compareSizes (keyLength boundary : GivenNumber) : Action Unit := do
  match keyLength.read? with
  | none => throw .wrongType
  | some k =>
    let _ ← check (checkSizes k (some 0))
    match boundary.read? with
    | none => throw .wrongType
    | some b =>
      let _ ← check (checkSizes k b)

/-- The checks of a call that come before it compares its last number. -/
def checks : Call → Action Unit
  | .step _ | .newComment _ _ => return
  | .addLine p line _ => do
    match p with
    | none => throw (.refused .missingLines)
    | some p =>
      match (← pair (.register p)).lists? with
      | none => throw (.refused .missingLines)
      | some _ =>
        let _ ← check (ownedBytes "line" line none)
  | .commentLine c _ => do
    let _ ← check (← comment c).live
  | .valueOfLines _ _ _ _ keyLength boundary _ => compareSizes keyLength boundary
  | .valueOfContent _ content _ _ keyLength boundary _ => do
    compareSizes keyLength boundary
    let _ ← check (ownedBytes "value" content none)
  | .update v content _ _ boundary => do
    let v ← value v
    match boundary with
    | .absent => pure ()
    | boundary => compareSizes (.integer v.keyLength) boundary
    let _ ← check (ownedBytes "value" content none)
  | .setKeyLength v keyLength => do
    let v ← value v
    compareSizes keyLength (.integer v.boundary)

def answer (c : Call) : Action Reply :=
  match c.step? with
  | some t => act t
  | none => do
    checks c
    throw .wrongType

/-- Makes one call: the store it leaves, and its reply or failure. -/
def perform (s : Store) (c : Call) : Store × Except Failure Reply :=
  match answer c s with
  | .ok reply s => (s, .ok reply)
  | .error e s => (s, .error e)

end Store

end FoldedIni
