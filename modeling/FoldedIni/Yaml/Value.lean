import FoldedIni.Datum
import FoldedIni.Number.Shortest
import FoldedIni.Number.Integer
import FoldedIni.Yaml.Node

/-!
# Values

What the nodes of a document stand for. A plain scalar without a tag is a truth
value, a number or nothing if it is written as one, and a text otherwise. The
keys of a map are distinct; numbers and truth values are compared by their value.

Dates, sets and binary data are left out, and so are the numbers of older versions.
-/

set_option autoImplicit false

namespace FoldedIni.Yaml

/-! ## Kinds of scalars -/

inductive Kind where
  | null
  | truth
  | integer
  | real
  | text
  /-- The key under which other maps are merged. -/
  | merge
  /-- The key of a default value. -/
  | value
  deriving DecidableEq, Repr

def unsigned : List Char → List Char
  | '+' :: rest => rest
  | '-' :: rest => rest
  | rest => rest

/-- Are there characters of a class, or underscores, and nothing else? -/
def isRun (p : Char → Bool) (s : List Char) : Bool :=
  !s.isEmpty && s.all fun c => p c || c == '_'

def isBinaryDigit (c : Char) : Bool := c == '0' || c == '1'

def isOctalDigit (c : Char) : Bool := '0' ≤ c && c ≤ '7'

/-- Is this how an integer is written, after its sign? -/
def isInteger (s : List Char) : Bool :=
  match s with
  | '0' :: 'b' :: rest => isRun isBinaryDigit rest
  | '0' :: 'o' :: rest => isRun isOctalDigit rest
  | '0' :: 'x' :: rest => isRun (fun c => (hexDigit? c).isSome) rest
  | rest => isRun Char.isDigit rest

/-- Is this an exponent, of which the sign may be required? Nothing is none. -/
def isExponent (signed : Bool) (s : List Char) : Bool :=
  match s with
  | e :: rest =>
    (e == 'e' || e == 'E') &&
      (!signed || rest.head? == some '+' || rest.head? == some '-') &&
      !(unsigned rest).isEmpty && (unsigned rest).all Char.isDigit
  | [] => false

def isDigitOrBar (c : Char) : Bool := c.isDigit || c == '_'

/-- Is this how a number with a point or an exponent is written, after its sign? -/
def isReal (s : List Char) : Bool :=
  match s with
  | '.' :: rest =>
    let behind := rest.dropWhile isDigitOrBar
    rest.head?.any isDigitOrBar && (behind.isEmpty || isExponent true behind)
  | c :: rest =>
    c.isDigit &&
      match rest.dropWhile isDigitOrBar with
      | '.' :: more =>
        let behind := more.dropWhile isDigitOrBar
        behind.isEmpty || isExponent false behind
      | behind => isExponent false behind
  | [] => false

/-- What a plain scalar without a tag is. -/
def kindOf (s : String) : Kind :=
  let number := unsigned s.toList
  if ["true", "True", "TRUE", "false", "False", "FALSE"].contains s then .truth
  else if ["", "~", "null", "Null", "NULL"].contains s then .null
  else if [".inf", ".Inf", ".INF"].contains (String.ofList number) then .real
  else if [".nan", ".NaN", ".NAN"].contains s then .real
  else if s.toList.head? == some '_' then .text
  else if isReal number then .real
  else if isInteger number then .integer
  else if s = "<<" then .merge
  else if s = "=" then .value
  else .text

/-! ## Reading scalars -/

def splitSign : List Char → Bool × List Char
  | '-' :: rest => (true, rest)
  | '+' :: rest => (false, rest)
  | rest => (false, rest)

def readBase (base : Nat) (p : Char → Bool) (s : List Char) : Except Fault Nat :=
  if !s.isEmpty && s.all p then .ok (Number.readDigits base s) else .error .notNumber

def readInteger (s : String) : Except Fault Int := do
  let (negative, digits) := splitSign (s.toList.filter (· != '_'))
  let n ← match digits with
    | '0' :: 'b' :: rest => readBase 2 isBinaryDigit rest
    | '0' :: 'o' :: rest => readBase 8 isOctalDigit rest
    | '0' :: 'x' :: rest => readBase 16 (fun c => (hexDigit? c).isSome) rest
    | rest =>
      match Number.natural? (Text.trim rest) with
      | some n => pure n
      | none => throw .notNumber
  return if negative then -(n : Int) else n

def readMagnitude (s : List Char) : Except Fault Float :=
  let whole := s.takeWhile Char.isDigit
  let (fraction, behind) := match s.dropWhile Char.isDigit with
    | '.' :: rest => (rest.takeWhile Char.isDigit, rest.dropWhile Char.isDigit)
    | rest => ([], rest)
  let digits := Number.readDigits 10 (whole ++ fraction)
  let places : Int := fraction.length
  if whole.isEmpty && fraction.isEmpty then .error .notNumber
  else if behind.isEmpty then .ok (Number.floatOf digits (-places))
  else if isExponent false behind then
    let (negative, exponent) := splitSign behind.tail
    let e : Int := Number.readDigits 10 exponent
    .ok (Number.floatOf digits ((if negative then -e else e) - places))
  else .error .notNumber

def readReal (s : String) : Except Fault String := do
  let (negative, magnitude) := splitSign (s.toList.filter (· != '_'))
  let lower := String.ofList (magnitude.map Char.toLower)
  let x ← if [".inf", "inf", "infinity"].contains lower then pure (1.0 / 0.0 : Float)
    else if [".nan", "nan"].contains lower then pure (0.0 / 0.0 : Float)
    else readMagnitude magnitude
  return Number.literalStyle.writeFloat (if negative then -x else x)

def readTruth (s : String) : Except Fault Bool :=
  let lower := s.toLower
  if ["true", "yes", "y", "on"].contains lower then .ok true
  else if ["false", "no", "n", "off"].contains lower then .ok false
  else .error .notTruth

/-- Reads a scalar of a kind. The two special keys are no values, and what holds half a
character is nothing but a text. -/
def readScalar (kind : Kind) (text : AnyText) : Except Fault Datum :=
  match kind, text with
  | .null, _ => .ok .null
  | .truth, .whole s => (readTruth s).map .bool
  | .truth, .halved _ => .error .notTruth
  | .integer, .whole s => (readInteger s).map .int
  | .real, .whole s => (readReal s).map .float
  | .integer, .halved _ | .real, .halved _ => .error .notNumber
  | .text, text => .ok (.ofText text)
  | .merge, _ | .value, _ => .error .malformed

def kindOfTag : String → Option Kind
  | "tag:yaml.org,2002:null" => some .null
  | "tag:yaml.org,2002:bool" => some .truth
  | "tag:yaml.org,2002:int" => some .integer
  | "tag:yaml.org,2002:float" => some .real
  | "tag:yaml.org,2002:str" => some .text
  | _ => none

/-- The kind of a scalar node. The tag that is a mere mark lets the scalar count as plain. -/
def scalarKind (tag : Option String) (text : AnyText) (isPlain : Bool) : Except Fault Kind :=
  let kind := match text with
    | .whole s => kindOf s
    | .halved _ => .text
  match tag with
  | none => .ok (if isPlain then kind else .text)
  | some "!" => .ok kind
  | some tag =>
    match kindOfTag tag with
    | some kind => .ok kind
    | none => .error .malformed

/-! ## Keys -/

/-- The value of a number or a truth value as `digits * 10 ^ exponent`. -/
def numberOf : Datum → Option (Int × Int)
  | .bool b => some (b.toNat, 0)
  | .int n => some (n, 0)
  | .float s =>
    let (negative, magnitude) := splitSign s.toList
    let whole := magnitude.takeWhile Char.isDigit
    let behind := magnitude.dropWhile Char.isDigit
    let fraction := (behind.drop 1).takeWhile Char.isDigit
    let exponent := (behind.drop 1).dropWhile fun c => c.isDigit
    let fraction := if behind.head? == some '.' then fraction else []
    let exponent := if behind.head? == some '.' then exponent.drop 1 else behind.drop 1
    let (down, places) := splitSign exponent
    let digits : Int := Number.readDigits 10 (whole ++ fraction)
    let e : Int := Number.readDigits 10 places
    if whole.isEmpty then none
    else some (if negative then -digits else digits, (if down then -e else e) - fraction.length)
  | _ => none

def sameNumber (a b : Int × Int) : Bool :=
  let least := min a.2 b.2
  let scaled (n : Int × Int) : Int := n.1 * (Number.tenTo (n.2 - least).toNat : Int)
  scaled a == scaled b

mutual

/-- Do two keys count as one? -/
def sameKey (a b : Datum) : Bool :=
  match a, b with
  | .null, .null => true
  | .text s, .text t => s == t
  | .halved s, .halved t => s == t
  | .list xs, .list ys => sameKeys xs ys
  | .float s, .float t =>
    match numberOf a, numberOf b with
    | some m, some n => sameNumber m n
    | _, _ => s == t && s != "nan"
  | _, _ =>
    match numberOf a, numberOf b with
    | some m, some n => sameNumber m n
    | _, _ => false

/-- Do the keys in two lists count as one, each with each? -/
def sameKeys (xs ys : List Datum) : Bool :=
  match xs, ys with
  | [], [] => true
  | x :: xs, y :: ys => sameKey x y && sameKeys xs ys
  | _, _ => false

end

/-- Refuses a key that is a map, or a list that holds a list or a map. -/
def checkKey (k : Datum) : Except Fault Unit :=
  match k with
  | .map _ => .error .malformed
  | .list items =>
    if items.any fun d => match d with
      | .list _ | .map _ => true
      | _ => false
    then .error .unhashable else .ok ()
  | _ => .ok ()

/-- Puts an entry in the place of the one with the same key, or behind the others. -/
def putEntry (k v : Datum) : List (Datum × Datum) → List (Datum × Datum)
  | [] => [(k, v)]
  | (k₁, v₁) :: rest =>
    if sameKey k₁ k then (k₁, v) :: rest else (k₁, v₁) :: putEntry k v rest

def checkDistinct : List (Datum × Datum) → Except Fault Unit
  | [] => .ok ()
  | (k, _) :: rest =>
    if rest.any fun e => sameKey k e.1 then .error .malformed else checkDistinct rest

/-- The entries of the maps that are merged into another, the first map last. -/
def mergedEntries : Datum → Except Fault (List (Datum × Datum))
  | .map entries => .ok entries
  | .list items => do
    let maps ← items.mapM fun d => match d with
      | .map entries => .ok entries
      | _ => .error Fault.malformed
    return maps.reverse.flatten
  | _ => .error .malformed

/-- The map of entries of which some may stand under the merge key. Merged entries
give way to the others, and only where none are merged do keys have to differ. -/
def mapOf (own : List (Datum × Datum)) (merges : List Datum) : Except Fault Datum := do
  match merges with
  | [] =>
    checkDistinct own
    return .map own
  | [d] =>
    let merged ← mergedEntries d
    if merged.isEmpty then
      checkDistinct own
      return .map own
    return .map ((merged ++ own).foldl (fun es e => putEntry e.1 e.2 es) [])
  | _ => throw .malformed

/-! ## Nodes -/

def Node.isMerge : Node → Bool
  | .scalar tag text isPlain =>
    match scalarKind tag text isPlain with
    | .ok .merge => true
    | _ => false
  | _ => false

def checkTag (expected : String) : Option String → Except Fault Unit
  | none => .ok ()
  | some tag => if tag == "!" || tag == expected then .ok () else .error .malformed

mutual

def Node.toDatum : Node → Except Fault Datum
  | .scalar tag text isPlain => do readScalar (← scalarKind tag text isPlain) text
  | .sequence tag items => do
    checkTag "tag:yaml.org,2002:seq" tag
    return .list (← itemsToData items)
  | .mapping tag entries => do
    checkTag "tag:yaml.org,2002:map" tag
    let (own, merges) ← entriesToData entries
    mapOf own merges

def itemsToData : List Node → Except Fault (List Datum)
  | [] => .ok []
  | n :: rest => do
    let d ← n.toDatum
    return d :: (← itemsToData rest)

/-- The entries of a mapping, and what stands under its merge keys. -/
def entriesToData : List (Node × Node) → Except Fault (List (Datum × Datum) × List Datum)
  | [] => .ok ([], [])
  | (k, v) :: rest => do
    if k.isMerge then
      let merged ← v.toDatum
      let (own, merges) ← entriesToData rest
      return (own, merged :: merges)
    else
      let key ← keyToDatum k
      checkKey key
      let value ← v.toDatum
      let (own, merges) ← entriesToData rest
      return ((key, value) :: own, merges)

/-- What a key stands for. The key of a default value is a text like others. -/
def keyToDatum : Node → Except Fault Datum
  | .scalar tag text isPlain => do
    match ← scalarKind tag text isPlain with
    | .value => return .ofText text
    | kind => readScalar kind text
  | .sequence tag items => do
    checkTag "tag:yaml.org,2002:seq" tag
    return .list (← itemsToData items)
  | .mapping _ _ => .error .malformed

end

def isDocumentChar (c : Char) : Bool :=
  c == '\t' || c == '\n' || c == '\r' || (0x20 ≤ c.toNat && c.toNat < 0x7F) || c == '\x85' ||
    (0xA0 ≤ c.toNat && c.toNat ≤ 0xFFFD) || 0x10000 ≤ c.toNat

/-- Reads the one document of a text. An empty text stands for nothing. -/
def read (s : String) : Except Fault Datum := do
  let s := s.toList
  if !s.all isDocumentChar then throw .malformed
  match ← Node.ofTokens? (← Token.ofText s) with
  | none => return .null
  | some n => n.toDatum

end FoldedIni.Yaml
