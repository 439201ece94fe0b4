import FoldedIni.Datum

/-!
# Refused arguments

Every check of the library names the argument it refuses and why. The wording of
each refusal is fixed in `ArgumentError.message`.
-/

set_option autoImplicit false

namespace FoldedIni

inductive ArgumentError where
  | missing (what : String)
  | notBytes (what typeName : String)
  /-- A text in which half a character stands has no bytes. -/
  | unencodable
  | lengthOutOfRange (what : String) (length : Int) (size : Nat)
  | lineNotBytes (index : Int) (typeName : String)
  | lengthNotInteger (index : Int) (given : Datum)
  | lineLengthOutOfRange (index length : Int) (size : Nat)
  | missingLines
  | unequalCounts
  | destroyedComment
  | noCommentLine (index : Int) (count : Nat)
  | missingComment
  | invalidKeyLength (given : Option Int)
  | invalidBoundary (given : Option Int)
  | missingValue
  | keyTooShort (size : Nat) (keyLength : Int)
  deriving Repr

namespace ArgumentError

/-- A number that need not be given, as it is shown in messages. -/
def size : Option Int → String
  | none => Datum.null.literal
  | some n => toString n

def message : ArgumentError → String
  | .missing what => s!"Missing {what}"
  | .notBytes what typeName => s!"{what} must be bytes-like, got {typeName}"
  | .unencodable => "surrogates not allowed"
  | .lengthOutOfRange what length size =>
    s!"Length {length} is out of range for a {what} of {size} bytes"
  | .lineNotBytes index typeName => s!"Line {index} must be bytes-like, got {typeName}"
  | .lengthNotInteger index given =>
    s!"Length of line {index} must be an integer, got {given.literal}"
  | .lineLengthOutOfRange index length size =>
    s!"Length {length} is out of range for line {index} of {size} bytes"
  | .missingLines => "Missing line arrays"
  | .unequalCounts => "raw_lines and raw_lengths must have the same number of entries"
  | .destroyedComment => "Comment has been destroyed"
  | .noCommentLine index count => s!"Comment line {index} out of range (have {count})"
  | .missingComment => "Missing comment"
  | .invalidKeyLength given => s!"Invalid key length: {size given}"
  | .invalidBoundary given => s!"Invalid boundary: {size given}"
  | .missingValue => "Missing value object"
  | .keyTooShort size keyLength => s!"Key is {size} bytes, key length is {keyLength}"

end ArgumentError

/-- Why an operation fails. -/
inductive Failure where
  | refused (cause : ArgumentError)
  /-- An entry that is no byte string, or a length that is none, was used as one. -/
  | wrongType
  /-- A line was to be added to a list that is not there. -/
  | absentList
  /-- No register has the name. -/
  | unbound (name : String)
  /-- The name is bound already. -/
  | taken (name : String)
  deriving Repr

end FoldedIni
