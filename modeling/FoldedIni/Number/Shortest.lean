/-!
# The shortest decimal of a float

A float stands for all reals that round to it. Its shortest decimal is the one
among them with the fewest digits and, of those, the nearest to the float. The
search is exact: the float is a whole number of quarters of its last place, and
ends and candidates are compared as fractions of whole numbers.
-/

set_option autoImplicit false

namespace FoldedIni.Number

/-- The positive number `mantissa * 2 ^ exponent`. Below a power of two the next
float is half as far away as above it. -/
structure Binary where
  mantissa : Nat
  exponent : Int
  atPower : Bool
  deriving Repr

/-- The positive number `digits * 10 ^ exponent`. -/
structure Decimal where
  digits : Nat
  exponent : Int
  deriving DecidableEq, Repr

def tenTo (n : Nat) : Nat := Nat.pow 10 n

namespace Binary

/-- The magnitude of a finite float with the given bits: 52 of them hold the
fraction, and eleven above those the exponent. -/
def ofBits (bits : UInt64) : Binary :=
  let one : Nat := 1 <<< 52
  let biased : Nat := (bits.toNat >>> 52) % (1 <<< 11)
  let fraction : Nat := bits.toNat % one
  if biased = 0 then ⟨fraction, -1074, false⟩
  else ⟨one + fraction, (biased : Int) - 1075, fraction = 0 && 1 < biased⟩

/-- Brings `quarters` quarters of the last place and `digits` units of the grid
`10 ^ grid` to a common scale. -/
def scaled (x : Binary) (grid : Int) (quarters digits : Nat) : Nat × Nat :=
  ((quarters * tenTo (-grid).toNat) <<< (x.exponent - 2).toNat,
    (digits * tenTo grid.toNat) <<< (2 - x.exponent).toNat)

/-- Does the decimal round to the float? The ends of the interval round to the
float with the even mantissa. -/
def covers (x : Binary) (d : Decimal) : Bool :=
  let (low, at₁) := x.scaled d.exponent (4 * x.mantissa - if x.atPower then 1 else 2) d.digits
  let (high, at₂) := x.scaled d.exponent (4 * x.mantissa + 2) d.digits
  if x.mantissa % 2 = 0 then low ≤ at₁ && at₂ ≤ high else low < at₁ && at₂ < high

/-- The number of decimal places in front of the point, from a first guess on:
noughts behind the point count as negative places. -/
def placesFrom (x : Binary) : (fuel : Nat) → Int → Int
  | 0, k => k
  | fuel + 1, k =>
    let (value, power) := x.scaled k (4 * x.mantissa) 1
    if power ≤ value then x.placesFrom fuel (k + 1) else k

def places (x : Binary) : Int := x.placesFrom 700 (-330)

/-- The better of the two neighbours of the float on a grid, if one rounds to it. -/
def onGrid? (x : Binary) (grid : Int) : Option Decimal :=
  let (value, one) := x.scaled grid (4 * x.mantissa) 1
  let below : Decimal := ⟨value / one, grid⟩
  let above : Decimal := ⟨value / one + 1, grid⟩
  let twice := 2 * (value % one)
  let aboveIsNearer := one < twice || (twice = one && below.digits % 2 = 1)
  match x.covers below, x.covers above with
  | true, true => some (if aboveIsNearer then above else below)
  | true, false => some below
  | false, true => some above
  | false, false => none

def searchFrom (x : Binary) (places : Int) : (fuel n : Nat) → Decimal
  | 0, n => ⟨x.mantissa, x.exponent - n⟩
  | fuel + 1, n =>
    match x.onGrid? (places - n) with
    | some d => d
    | none => x.searchFrom places fuel (n + 1)

/-- The shortest decimal of the float. Seventeen digits always suffice. -/
def shortest (x : Binary) : Decimal := x.searchFrom x.places 17 1

end Binary

def significant (digits : Nat) : List Char :=
  ((Nat.toDigits 10 digits).reverse.dropWhile (· == '0')).reverse

structure DecimalStyle where
  /-- A number with this many places in front of its point is the largest written in full. -/
  mostPlaces : Int
  /-- A number with fewer places than this is written with an exponent. -/
  leastPlaces : Int
  /-- An exponent has so many digits at least. -/
  exponentDigits : Nat

namespace DecimalStyle

def inFull (digits : List Char) (places : Int) : List Char :=
  if places ≤ 0 then '0' :: '.' :: (List.replicate (-places).toNat '0' ++ digits)
  else
    let whole := digits.take places.toNat
    let behind := digits.drop places.toNat
    whole ++ List.replicate (places.toNat - whole.length) '0' ++ '.' ::
      (if behind.isEmpty then ['0'] else behind)

/-- Digits with one in front of the point, and an exponent. -/
def withExponent (style : DecimalStyle) (digits : List Char) (places : Int) : List Char :=
  let exponent := places - 1
  let written := Nat.toDigits 10 exponent.natAbs
  let behind := digits.drop 1
  digits.take 1 ++ (if behind.isEmpty then [] else '.' :: behind) ++
    'e' :: (if exponent < 0 then '-' else '+') ::
      (List.replicate (style.exponentDigits - written.length) '0' ++ written)

def write (style : DecimalStyle) (d : Decimal) : List Char :=
  let places := (Nat.toDigits 10 d.digits).length + d.exponent
  let digits := significant d.digits
  if places < style.leastPlaces || style.mostPlaces < places then
    style.withExponent digits places
  else inFull digits places

def writeFloat (style : DecimalStyle) (x : Float) : String :=
  let negative := 1 <<< 63 ≤ x.toBits.toNat
  let magnitude :=
    if x.isNaN then "nan".toList
    else if x.isInf then "inf".toList
    else if x == 0 then "0.0".toList
    else style.write (Binary.ofBits x.toBits).shortest
  String.ofList (if negative && !x.isNaN then '-' :: magnitude else magnitude)

end DecimalStyle

/-- The style of literals: numbers from 0.0001 up to sixteen places are written in
full, and exponents have two digits at least. -/
def literalStyle : DecimalStyle := ⟨16, -3, 2⟩

/-- Reads digits as a number to a base; underscores do not count. -/
def readDigits (base : Nat) (s : List Char) : Nat :=
  (s.filter (· != '_')).foldl (fun n c =>
    n * base + (if c.isDigit then c.toNat - 48 else c.toLower.toNat - 87)) 0

/-- The float next to `digits * 10 ^ exponent`. Beyond the range of floats the
exponent makes no difference. -/
def floatOf (digits : Nat) (exponent : Int) : Float :=
  let places := (Nat.toDigits 10 digits).length + exponent
  if digits = 0 || places < -400 then 0
  else if 400 < places then Float.ofScientific 1 false 400
  else if exponent < 0 then Float.ofScientific digits true exponent.natAbs
  else Float.ofScientific digits false exponent.natAbs

end FoldedIni.Number
