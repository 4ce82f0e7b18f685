import QueryChain.Number.Shortest

/-!
The written form of a number. A layout says which numbers are written positionally and how the
digits of the shortest decimal are set out; the digits themselves do not depend on it.
-/

namespace QueryChain.Number

structure Layout where
  /-- Whether a number whose leading digit has this power of ten is written positionally. -/
  positional : Int → Bool
  /-- Whether a whole number keeps a point and a zero. -/
  pointZero : Bool
  /-- Whether an exponent that is not negative carries a plus sign. -/
  plus : Bool
  tie : Tie

def digitChars (n : Nat) : List Char :=
  Nat.toDigits 10 n

def intChars (n : Int) : List Char :=
  if n < 0 then '-' :: digitChars n.natAbs else digitChars n.natAbs

def intText (n : Int) : String :=
  String.ofList (intChars n)

/-- The digits of `n`, filled up with zeros on the left to at least `width`. -/
def padded (width n : Nat) : List Char :=
  List.replicate (width - (digitChars n).length) '0' ++ digitChars n

def Decimal.leading (d : Decimal) : Int :=
  d.exponent + (digitChars d.digits).length - 1

def Decimal.positionalChars (pointZero : Bool) (d : Decimal) : List Char :=
  let ds := digitChars d.digits
  match d.exponent with
  | .ofNat e => ds ++ List.replicate e '0' ++ (if pointZero then ['.', '0'] else [])
  | .negSucc e =>
    let places := e + 1
    if places < ds.length then ds.take (ds.length - places) ++ '.' :: ds.drop (ds.length - places)
    else '0' :: '.' :: List.replicate (places - ds.length) '0' ++ ds

/-- One digit, the others behind a point, and the exponent. -/
def Decimal.scientificChars (plus : Bool) (d : Decimal) : List Char :=
  let mantissa := match digitChars d.digits with
    | first :: second :: rest => first :: '.' :: second :: rest
    | ds => ds
  let sign := if plus && 0 ≤ d.leading then ['+'] else []
  mantissa ++ 'e' :: sign ++ intChars d.leading

def Layout.magnitudeChars (l : Layout) (x : Binary64) : List Char :=
  let d := binary64.shortest l.tie x.magnitude
  if l.positional d.leading then d.positionalChars l.pointZero else d.scientificChars l.plus

def Layout.write (l : Layout) (x : Binary64) : String :=
  if x.isNan then "NaN"
  else
    let sign := if x.negative then ['-'] else []
    let magnitude := if x.isInfinite then ['i', 'n', 'f'] else l.magnitudeChars x
    String.ofList (sign ++ magnitude)

end QueryChain.Number
