import QueryChain.Number.Binary

/-!
The shortest decimal that rounds to a given magnitude. On each decimal grid, coarse to fine, the
two neighbours of the value are tried; the first grid with a neighbour inside the rounding
interval gives the digits, and of two such neighbours the nearer one is taken.
-/

namespace QueryChain.Number

/-- The decimal `digits * 10 ^ exponent`, without zeros at its end. -/
structure Decimal where
  digits : Nat
  exponent : Int
  deriving DecidableEq

inductive Tie
  | up
  | even

def scaleTen (num den : Nat) : Int → Nat × Nat
  | .ofNat k => (num * 10 ^ k, den)
  | .negSucc k => (num, den * 10 ^ (k + 1))

/-- The greatest `k` with `10 ^ k ≤ num / den`, for a positive quotient. -/
def floorLogTen (num den : Nat) : Int :=
  let guess := ((num.log2 : Int) - den.log2) * 30103 / 100000
  let reached (k : Int) : Bool :=
    let (a, b) := scaleTen num den (-k)
    b ≤ a
  if reached (guess + 1) then guess + 1
  else if reached guess then guess
  else guess - 1

/-- The reals that round to one magnitude: quotients between `low` and `high`, all over `den`,
the ends included when `closed`. -/
structure Interval where
  low : Nat
  value : Nat
  high : Nat
  den : Nat
  closed : Bool

def Format.interval (f : Format) (magnitude : Nat) : Interval :=
  let m := f.significand magnitude
  let narrow := m = 2 ^ f.fractionBits ∧ f.leastExponent < f.exponent magnitude
  let low := if narrow then 4 * m - 1 else 4 * m - 2
  match f.exponent magnitude - 2 with
  | .ofNat e => ⟨low * 2 ^ e, 4 * m * 2 ^ e, (4 * m + 2) * 2 ^ e, 1, m % 2 == 0⟩
  | .negSucc e => ⟨low, 4 * m, 4 * m + 2, 2 ^ (e + 1), m % 2 == 0⟩

def Interval.contains (i : Interval) (num den : Nat) : Bool :=
  if i.closed then i.low * den ≤ num * i.den && num * i.den ≤ i.high * den
  else i.low * den < num * i.den && num * i.den < i.high * den

/-- The neighbour of the value on the grid of multiples of `10 ^ k` that lies in the interval. -/
def Interval.onGrid (tie : Tie) (i : Interval) (k : Int) : Option Nat :=
  let (num, den) := scaleTen i.value i.den (-k)
  let below := num / den
  let inside (n : Nat) : Bool :=
    let (a, b) := scaleTen n 1 k
    i.contains a b
  if inside below then
    if inside (below + 1) then
      let rest := 2 * (num % den)
      if rest < den then some below
      else if den < rest then some (below + 1)
      else match tie with
        | .up => some (below + 1)
        | .even => some (below + below % 2)
    else some below
  else if inside (below + 1) then some (below + 1)
  else none

/-- Tries the grids below `10 ^ k`, `fuel` of them, each ten times finer than the one before. -/
def Interval.search (tie : Tie) (i : Interval) : Nat → Int → Decimal
  | 0, k => ⟨i.value / i.den, k⟩
  | fuel + 1, k =>
    match i.onGrid tie k with
    | some n => ⟨n, k⟩
    | none => i.search tie fuel (k - 1)

/-- The shortest decimal that rounds to the magnitude, nearest to it among those. -/
def Format.shortest (f : Format) (tie : Tie) (magnitude : Nat) : Decimal :=
  if magnitude = 0 then ⟨0, 0⟩
  else
    let i := f.interval magnitude
    i.search tie 18 (floorLogTen i.value i.den + 1)

end QueryChain.Number
