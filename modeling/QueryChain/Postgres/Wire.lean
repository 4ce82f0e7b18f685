import QueryChain.Number.Power

/-!
Words of a wire format: numbers as bytes, the most significant first, and signed numbers in two's
complement.
-/

namespace QueryChain.Postgres

abbrev Bytes := List UInt8

/-- The last `width` bytes of a number. -/
def ofNat : Nat → Nat → Bytes
  | 0, _ => []
  | width + 1, n => UInt8.ofNat (n / 256 ^ width) :: ofNat width n

def toNat (bytes : Bytes) : Nat :=
  bytes.foldl (fun n b => 256 * n + b.toNat) 0

def ofInt (width : Nat) (n : Int) : Bytes :=
  ofNat width (n % 256 ^ width).toNat

def toInt (bytes : Bytes) : Int :=
  if 2 * toNat bytes < 256 ^ bytes.length then toNat bytes
  else toNat bytes - 256 ^ bytes.length

def takeBytes? (count : Nat) (bytes : Bytes) : Option (Bytes × Bytes) :=
  if bytes.length < count then none else some (bytes.take count, bytes.drop count)

/-- The whole message, if it has the given length. -/
def exactly? (width : Nat) (bytes : Bytes) : Option Bytes :=
  if bytes.length = width then some bytes else none

end QueryChain.Postgres
