import FoldedIni.Text.Quoted
import FoldedIni.Text.Utf8

/-!
# Texts with half characters

An escape can name half of a character: a code that stands for nothing without the
half that belongs to it. A text in which such a half stands can be held and shown
as a literal, but it has no bytes.
-/

set_option autoImplicit false

namespace FoldedIni

namespace Text

/-- A character, or half of one by its code. -/
inductive Sign where
  | char (c : Char)
  | half (code : Nat)
  deriving DecidableEq, Repr

def Sign.char? : Sign → Option Char
  | .char c => some c
  | .half _ => none

/-- One sign of a literal. -/
def escapeSign (quote : Char) : Sign → List Char
  | .char c => escapeChar isPrintable quote c
  | .half code => '\\' :: 'u' :: hexDigits 4 code

/-- Signs as a literal. -/
def quoteSigns (signs : List Sign) : String :=
  let quote := quoteFor (signs.filterMap Sign.char?)
  String.ofList (quote :: (signs.flatMap (escapeSign quote) ++ [quote]))

end Text

/-- A text, in which half characters may stand. -/
inductive AnyText where
  | whole (s : String)
  | halved (signs : List Text.Sign)
  deriving DecidableEq, Repr

namespace AnyText

instance : Coe String AnyText := ⟨.whole⟩

def ofSigns (signs : List Text.Sign) : AnyText :=
  match signs.mapM Text.Sign.char? with
  | some s => .whole (String.ofList s)
  | none => .halved signs

/-- The bytes of a text, if no half character stands in it. -/
def bytes? : AnyText → Option Bytes
  | .whole s => some (Text.utf8 s)
  | .halved _ => none

def literal : AnyText → String
  | .whole s => Text.quote s
  | .halved signs => Text.quoteSigns signs

/-- A text as it stands, or its literal if half a character stands in it. -/
def shown : AnyText → String
  | .whole s => s
  | t => t.literal

@[simp] theorem bytes?_whole (s : String) : (whole s).bytes? = some (Text.utf8 s) := rfl

@[simp] theorem bytes?_halved (signs : List Text.Sign) : (halved signs).bytes? = none := rfl

end AnyText

end FoldedIni
