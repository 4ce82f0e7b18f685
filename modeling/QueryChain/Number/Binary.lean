import QueryChain.Number.Power

/-!
Binary floating point in integer arithmetic. A format reads the magnitude bits of a number as
`significand * 2 ^ exponent`, and rounds any quotient of naturals to the nearest magnitude, ties
to the even one. `Binary64` and `Binary32` are words of the two interchange formats.
-/

namespace QueryChain.Number

/-- A binary interchange format, given by the widths of its two magnitude fields. -/
structure Format where
  fractionBits : Nat
  exponentBits : Nat

namespace Format

/-- The magnitude of infinity; larger magnitudes are not numbers. -/
def infinity (f : Format) : Nat :=
  (2 ^ f.exponentBits - 1) * 2 ^ f.fractionBits

def leastExponent (f : Format) : Int :=
  2 - 2 ^ (f.exponentBits - 1) - f.fractionBits

def significand (f : Format) (magnitude : Nat) : Nat :=
  let fraction := magnitude % 2 ^ f.fractionBits
  if magnitude / 2 ^ f.fractionBits = 0 then fraction else 2 ^ f.fractionBits + fraction

def exponent (f : Format) (magnitude : Nat) : Int :=
  f.leastExponent + (magnitude / 2 ^ f.fractionBits - 1 : Nat)

def quotient (f : Format) (magnitude : Nat) : Nat × Nat :=
  let m := f.significand magnitude
  match f.exponent magnitude with
  | .ofNat e => (m * 2 ^ e, 1)
  | .negSucc e => (m, 2 ^ (e + 1))

/-- The quotient nearest to `num / den`, a tie going to the even one. -/
def nearest (num den : Nat) : Nat :=
  let q := num / den
  let r := num % den
  if 2 * r < den then q
  else if den < 2 * r then q + 1
  else q + q % 2

def exponentFor (f : Format) (num den : Nat) : Int :=
  let e : Int := (num.log2 : Int) - den.log2 - f.fractionBits
  let full : Bool := match e with
    | .ofNat e => 2 ^ f.fractionBits * den * 2 ^ e ≤ num
    | .negSucc e => 2 ^ f.fractionBits * den ≤ num * 2 ^ (e + 1)
  max f.leastExponent (if full then e else e - 1)

/-- The magnitude nearest to `num / den`; beyond the largest finite one lies infinity. -/
def round (f : Format) (num den : Nat) : Nat :=
  if num = 0 then 0
  else
    let e := f.exponentFor num den
    let m := match e with
      | .ofNat e => nearest num (den * 2 ^ e)
      | .negSucc e => nearest (num * 2 ^ (e + 1)) den
    min f.infinity ((e - f.leastExponent).toNat * 2 ^ f.fractionBits + m)

end Format

def binary64 : Format := ⟨52, 11⟩

def binary32 : Format := ⟨23, 8⟩

structure Binary64 where
  bits : UInt64
  deriving DecidableEq, Inhabited

structure Binary32 where
  bits : UInt32
  deriving DecidableEq, Inhabited

namespace Binary64

def magnitude (x : Binary64) : Nat := x.bits.toNat % 2 ^ 63

def negative (x : Binary64) : Bool := 2 ^ 63 ≤ x.bits.toNat

def ofMagnitude (negative : Bool) (magnitude : Nat) : Binary64 :=
  ⟨UInt64.ofNat ((if negative then 2 ^ 63 else 0) + magnitude)⟩

def zero : Binary64 := ofMagnitude false 0

def one : Binary64 := ⟨0x3FF0000000000000⟩

def nan : Binary64 := ⟨0x7FF8000000000000⟩

def infinite (negative : Bool) : Binary64 := ofMagnitude negative binary64.infinity

def isNan (x : Binary64) : Bool := binary64.infinity < x.magnitude

def isInfinite (x : Binary64) : Bool := x.magnitude == binary64.infinity

def isFinite (x : Binary64) : Bool := x.magnitude < binary64.infinity

def isZero (x : Binary64) : Bool := x.magnitude == 0

def ofQuotient (negative : Bool) (num den : Nat) : Binary64 :=
  ofMagnitude negative (binary64.round num den)

def ofInt (n : Int) : Binary64 :=
  ofQuotient (n < 0) n.natAbs 1

/-- The integer part of a finite number, with the fraction dropped. -/
def truncate (x : Binary64) : Int :=
  let (num, den) := binary64.quotient x.magnitude
  if x.negative then -(num / den : Nat) else (num / den : Nat)

/-- An integer that orders numbers as their values do; both zeros have the key 0. -/
def key (x : Binary64) : Int :=
  if x.negative then -x.magnitude else x.magnitude

/-- The order of values; a word that is not a number has no place in it. -/
def compare? (x y : Binary64) : Option Ordering :=
  if x.isNan || y.isNan then none else some (compare x.key y.key)

/-- The nearest number to the product of two finite numbers. -/
def mul (x y : Binary64) : Binary64 :=
  let (a, b) := binary64.quotient x.magnitude
  let (c, d) := binary64.quotient y.magnitude
  ofQuotient (x.negative != y.negative) (a * c) (b * d)

/-- The nearest number to the quotient of two finite numbers, the second one not zero. -/
def div (x y : Binary64) : Binary64 :=
  let (a, b) := binary64.quotient x.magnitude
  let (c, d) := binary64.quotient y.magnitude
  ofQuotient (x.negative != y.negative) (a * d) (b * c)

end Binary64

namespace Binary32

def magnitude (x : Binary32) : Nat := x.bits.toNat % 2 ^ 31

def negative (x : Binary32) : Bool := 2 ^ 31 ≤ x.bits.toNat

def ofMagnitude (negative : Bool) (magnitude : Nat) : Binary32 :=
  ⟨UInt32.ofNat ((if negative then 2 ^ 31 else 0) + magnitude)⟩

def isNan (x : Binary32) : Bool := binary32.infinity < x.magnitude

def ofQuotient (negative : Bool) (num den : Nat) : Binary32 :=
  ofMagnitude negative (binary32.round num den)

def ofInt (n : Int) : Binary32 :=
  ofQuotient (n < 0) n.natAbs 1

def widen (x : Binary32) : Binary64 :=
  if x.isNan then
    .ofMagnitude x.negative (binary64.infinity + 2 ^ 51 + x.magnitude % 2 ^ 22 * 2 ^ 29)
  else if x.magnitude = binary32.infinity then .infinite x.negative
  else
    let (num, den) := binary32.quotient x.magnitude
    .ofQuotient x.negative num den

def narrow (x : Binary64) : Binary32 :=
  if x.isNan then
    ofMagnitude x.negative (binary32.infinity + 2 ^ 22 + x.magnitude % 2 ^ 51 / 2 ^ 29)
  else if x.isInfinite then ofMagnitude x.negative binary32.infinity
  else
    let (num, den) := binary64.quotient x.magnitude
    ofQuotient x.negative num den

end Binary32

end QueryChain.Number
