import QueryChain.Number.Binary
import QueryChain.Number.Layout
import QueryChain.Postgres.Wire

/-!
Decimal numbers of at most 96 bits, and the column type `numeric` read as such. On the wire a
number is a row of digits to the base 10000; a weight says where its point stands.
-/

namespace QueryChain.Postgres

open Number

/-- The number `mantissa / 10 ^ scale`. -/
structure Fixed where
  mantissa : Nat
  scale : Nat
  deriving DecidableEq

namespace Fixed

def limit : Nat := 2 ^ 96

def maxScale : Nat := 28

/-- The number with the fewest fraction digits dropped that its mantissa fits, a tie going to the
even neighbour; there is none when the integer part is too large. -/
def fit (m scale : Nat) : Option Fixed :=
  (List.range (scale + 1)).findSome? fun k =>
    let q := Format.nearest m (10 ^ k)
    if q < limit then some ⟨q, scale - k⟩ else none

def addDigit (x : Fixed) (digit power : Nat) : Option Fixed :=
  let scale := max x.scale power
  fit (x.mantissa * 10 ^ (scale - x.scale) + digit * 10 ^ (scale - power)) scale

/-- Appends up to `count` zeros to a fraction, as long as the mantissa fits. -/
def extend : Nat → Fixed → Fixed
  | 0, x => x
  | count + 1, x =>
    if 10 * x.mantissa < limit then extend count ⟨10 * x.mantissa, x.scale + 1⟩ else x

/-- The number with a given count of fraction digits; a half is rounded up. -/
def rescale (scale : Nat) (x : Fixed) : Fixed :=
  if x.mantissa = 0 then ⟨0, min scale maxScale⟩
  else if scale < x.scale then
    ⟨(x.mantissa / 10 ^ (x.scale - scale - 1) + 5) / 10, scale⟩
  else extend (scale - x.scale) x

def chars (x : Fixed) : List Char :=
  digitChars (x.mantissa / 10 ^ x.scale) ++
    if x.scale = 0 then [] else '.' :: padded x.scale (x.mantissa % 10 ^ x.scale)

end Fixed

/-- A number as it is sent: base 10000 digits, the first of which counts `10000 ^ weight`, and the
count of fraction digits to be shown. -/
structure Numeric where
  negative : Bool
  weight : Int
  scale : Nat
  digits : List Nat
  deriving DecidableEq

namespace Numeric

def readDigits : Nat → Bytes → Option (List Nat)
  | 0, _ => some []
  | count + 1, bytes => do
    let (word, rest) ← takeBytes? 2 bytes
    return toNat word :: (← readDigits count rest)

def isSpecial (sign : Nat) : Bool :=
  sign == 0xC000 || sign == 0xD000 || sign == 0xF000

def ofBytes? (bytes : Bytes) : Option Numeric := do
  let (count, bytes) ← takeBytes? 2 bytes
  let (weight, bytes) ← takeBytes? 2 bytes
  let (sign, bytes) ← takeBytes? 2 bytes
  let (scale, bytes) ← takeBytes? 2 bytes
  if isSpecial (toNat sign) then none
  else
    return { negative := toNat sign == 0x4000
             weight := toInt weight
             scale := toNat scale
             digits := ← readDigits (toNat count) bytes }

/-- The integer part. Digits that are missing at its end are zeros; there are at most seven. -/
def integerPart? (n : Numeric) : Option Fixed :=
  let count := (n.weight + 1).toNat
  let ds := n.digits.take count
  let missing := count - ds.length
  if 7 < missing then none
  else
    let m := ds.foldl (fun m d => 10000 * m + d) 0 * 10000 ^ missing
    if m < Fixed.limit then some ⟨m, 0⟩ else none

/-- Adds the fraction digits from the given power of ten on. Of the digits past the largest scale
only the first counts, for rounding. -/
def addFraction : Nat → List Nat → Fixed → Option Fixed
  | _, [], x => some x
  | power, d :: rest, x =>
    if power ≤ Fixed.maxScale then
      (x.addDigit d power).bind fun x => addFraction (power + 4) rest x
    else if power = Fixed.maxScale + 4 ∧ 5000 ≤ d then x.addDigit 1 Fixed.maxScale
    else some x

def value? (n : Numeric) : Option Fixed := do
  let x ← n.integerPart?
  let x ← addFraction (4 * max 1 (-n.weight).toNat) (n.digits.drop (n.weight + 1).toNat) x
  return x.rescale n.scale

/-- The decimal text of a number; a zero keeps its sign. -/
def text? (n : Numeric) : Option String :=
  n.value?.map fun x => String.ofList ((if n.negative then ['-'] else []) ++ x.chars)

end Numeric

end QueryChain.Postgres
