import FoldedIni.Text.Halved

/-!
# Data of any type

What a caller hands in, and what a settings file holds, may be of any type. A
datum has the name of its type and a literal, both of which stand in messages.

A view has one dimension. The address in its literal is left out, and so are data of
any type that is not listed here.
-/

set_option autoImplicit false

namespace FoldedIni

/-- The types of byte buffers. A view is one of these if its items are single bytes
that lie side by side. -/
inductive Buffer where
  | fixed
  | growable
  | view
  deriving DecidableEq, Repr

/-- A datum. A float is given by its shortest decimal text. -/
inductive Datum where
  | null
  | bool (b : Bool)
  | int (n : Int)
  | float (text : String)
  | text (s : String)
  /-- A text in which half a character stands. -/
  | halved (signs : List Text.Sign)
  | bytes (kind : Buffer) (content : Bytes)
  /-- A view of items that may be longer than a byte, or lie apart. -/
  | view (parts : List Bytes) (adjacent : Bool)
  | list (items : List Datum)
  | map (entries : List (Datum × Datum))
  deriving Repr, Inhabited

namespace Datum

/-- A byte string that the library made itself. -/
def ofBytes (s : Bytes) : Datum := .bytes .fixed s

def ofText : AnyText → Datum
  | .whole s => .text s
  | .halved signs => .halved signs

@[simp] theorem ofText_eq_text_iff {t : AnyText} {s : String} :
    ofText t = .text s ↔ t = .whole s := by
  cases t <;> simp [ofText]

@[simp] theorem ofText_eq_halved_iff {t : AnyText} {signs : List Text.Sign} :
    ofText t = .halved signs ↔ t = .halved signs := by
  cases t <;> simp [ofText]

/-- The content of a byte buffer. A text is none. -/
def buffer? : Datum → Option Bytes
  | .bytes _ s => some s
  | _ => none

/-- How many items a buffer or a view has. A buffer has its bytes. -/
def size? : Datum → Option Nat
  | .bytes _ s => some s.length
  | .view parts _ => some parts.length
  | _ => none

/-- An integer; the truth values do not count as integers here. -/
def integer? : Datum → Option Int
  | .int n => some n
  | _ => none

def typeName : Datum → String
  | .null => "NoneType"
  | .bool _ => "bool"
  | .int _ => "int"
  | .float _ => "float"
  | .text _ | .halved _ => "str"
  | .bytes .fixed _ => "bytes"
  | .bytes .growable _ => "bytearray"
  | .bytes .view _ | .view _ _ => "memoryview"
  | .list _ => "list"
  | .map _ => "dict"

def bufferLiteral : Buffer → Bytes → String
  | .fixed, s => s.quote
  | .growable, s => "bytearray(" ++ s.quote ++ ")"
  | .view, _ => "<memory>"

/-- Brackets around the literals of a list of `count` items. A list that serves as
the key of a map cannot change, and its brackets show it. -/
def bracket (isKey : Bool) (count : Nat) (items : String) : String :=
  if isKey then "(" ++ items ++ (if count == 1 then ",)" else ")")
  else "[" ++ items ++ "]"

mutual

/-- The literal of a datum, which may stand for the key of a map. -/
def literalAs (isKey : Bool) : Datum → String
  | .null => "None"
  | .bool b => if b then "True" else "False"
  | .int n => toString n
  | .float digits => digits
  | .text s => Text.quote s
  | .halved signs => Text.quoteSigns signs
  | .bytes kind s => bufferLiteral kind s
  | .view _ _ => bufferLiteral .view []
  | .list items => bracket isKey items.length (itemLiterals items)
  | .map entries => "\x7b" ++ entryLiterals entries ++ "\x7d"

def itemLiterals : List Datum → String
  | [] => ""
  | [d] => d.literalAs false
  | d :: rest => d.literalAs false ++ ", " ++ itemLiterals rest

def entryLiterals : List (Datum × Datum) → String
  | [] => ""
  | [(k, v)] => k.literalAs true ++ ": " ++ v.literalAs false
  | (k, v) :: rest => k.literalAs true ++ ": " ++ v.literalAs false ++ ", " ++ entryLiterals rest

end

def literal (d : Datum) : String := d.literalAs false

/-- The datum as running text: a text stands for itself, all else is a literal. -/
def display : Datum → AnyText
  | .text s => s
  | .halved signs => .halved signs
  | d => d.literal

end Datum

end FoldedIni
