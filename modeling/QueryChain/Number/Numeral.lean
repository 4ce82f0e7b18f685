import QueryChain.Number.Binary

/-!
Reading numerals: integers of a bounded range with the first fault that stops them, and decimal
numbers rounded to the nearest `Binary64`.
-/

namespace QueryChain.Number

def digitValue? (c : Char) : Option Nat :=
  if c.isDigit then some (c.toNat - '0'.toNat) else none

def hexValue? (c : Char) : Option Nat :=
  if c.isDigit then some (c.toNat - '0'.toNat)
  else if 'a' ≤ c ∧ c ≤ 'f' then some (c.toNat - 'a'.toNat + 10)
  else if 'A' ≤ c ∧ c ≤ 'F' then some (c.toNat - 'A'.toNat + 10)
  else none

/-- The natural number written by a list of digits; other characters count as 0. -/
def ofDigits (cs : List Char) : Nat :=
  cs.foldl (fun n c => 10 * n + (digitValue? c).getD 0) 0

inductive NumeralFault
  | empty
  | invalidDigit
  | tooLarge
  | tooSmall
  deriving DecidableEq

def NumeralFault.message : NumeralFault → String
  | .empty => "cannot parse integer from empty string"
  | .invalidDigit => "invalid digit found in string"
  | .tooLarge => "number too large to fit in target type"
  | .tooSmall => "number too small to fit in target type"

/-- Reads digits onto `n`, up to `limit`; whichever fault comes first ends the reading. -/
def readDigits (limit : Nat) (beyond : NumeralFault) : Nat → List Char → Except NumeralFault Nat
  | n, [] => .ok n
  | n, c :: rest =>
    match digitValue? c with
    | none => .error .invalidDigit
    | some d =>
      if 10 * n + d ≤ limit then readDigits limit beyond (10 * n + d) rest
      else .error beyond

/-- Reads an integer between `-low` and `high`. A sign that no digit follows is no numeral. -/
def readInteger (low high : Nat) (cs : List Char) : Except NumeralFault Int :=
  match cs with
  | [] => .error .empty
  | ['+'] | ['-'] => .error .invalidDigit
  | '+' :: rest => (readDigits high .tooLarge 0 rest).map Int.ofNat
  | '-' :: rest => (readDigits low .tooSmall 0 rest).map (- Int.ofNat ·)
  | rest => (readDigits high .tooLarge 0 rest).map Int.ofNat

def readInt64 (s : String) : Except NumeralFault Int64 :=
  (readInteger (2 ^ 63) (2 ^ 63 - 1) s.toList).map Int64.ofInt

/-- Reads a natural number below `2 ^ 64`; it has no minus sign. -/
def readUInt64? (s : String) : Option UInt64 :=
  let cs := match s.toList with
    | '+' :: rest => rest
    | cs => cs
  if cs.isEmpty then none
  else match readDigits (2 ^ 64 - 1) .tooLarge 0 cs with
    | .ok n => some (UInt64.ofNat n)
    | .error _ => none

/-- The number nearest to `digits * 10 ^ exponent`. Exponents far outside the range of the format
are answered without computing the power. -/
def Binary64.ofDecimal (negative : Bool) (digits : Nat) (exponent : Int) : Binary64 :=
  let leading := exponent + (Nat.toDigits 10 digits).length - 1
  if digits = 0 ∨ leading < -400 then .ofMagnitude negative 0
  else if 400 < leading then .infinite negative
  else match exponent with
    | .ofNat e => .ofQuotient negative (digits * 10 ^ e) 1
    | .negSucc e => .ofQuotient negative digits (10 ^ (e + 1))

def readExponent? (cs : List Char) : Option Int :=
  let (negative, ds) := match cs with
    | '-' :: rest => (true, rest)
    | '+' :: rest => (false, rest)
    | rest => (false, rest)
  if ds.isEmpty || !ds.all Char.isDigit then none
  else some (if negative then -(ofDigits ds : Int) else ofDigits ds)

def readDecimal? (negative : Bool) (cs : List Char) : Option Binary64 :=
  let whole := cs.takeWhile Char.isDigit
  let rest := cs.dropWhile Char.isDigit
  let (fraction, rest) := match rest with
    | '.' :: rest => (rest.takeWhile Char.isDigit, rest.dropWhile Char.isDigit)
    | rest => ([], rest)
  if (whole ++ fraction).isEmpty then none
  else
    let exponent? := match rest with
      | [] => some 0
      | c :: rest => if c = 'e' ∨ c = 'E' then readExponent? rest else none
    exponent?.map fun e =>
      .ofDecimal negative (ofDigits (whole ++ fraction)) (e - fraction.length)

/-- Reads a number, an infinity or the word for what is not a number, in letters of any case. -/
def readBinary64? (s : String) : Option Binary64 :=
  let (negative, cs) := match s.toList with
    | '-' :: rest => (true, rest)
    | '+' :: rest => (false, rest)
    | rest => (false, rest)
  match String.ofList (cs.map Char.toLower) with
  | "inf" | "infinity" => some (.infinite negative)
  | "nan" => some (.ofMagnitude negative Binary64.nan.magnitude)
  | _ => readDecimal? negative cs

end QueryChain.Number
