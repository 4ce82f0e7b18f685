import QueryChain.Json.Basic
import QueryChain.Number.Numeral

/-!
Reading JSON text, as `serde_json` documents its reader: the JSON grammar, of members with one key
the last, integers within 64 bits apart from all other numbers, and nesting no deeper than 127. A
number keeps at most 64 bits of its digits before its power of ten is applied, so the last bit of a
float may differ from the nearest one; `scaled` is that rule.
-/

namespace QueryChain.Json

open Number

def isSpace (c : Char) : Bool :=
  c == ' ' || c == '\n' || c == '\t' || c == '\r'

def skipSpace (cs : List Char) : List Char :=
  cs.dropWhile isSpace

def hexUnit? (a b c d : Char) : Option Nat := do
  return (← hexValue? a) * 4096 + (← hexValue? b) * 256 + (← hexValue? c) * 16 + (← hexValue? d)

def simpleEscape? : Char → Option Char
  | '"' => some '"'
  | '\\' => some '\\'
  | '/' => some '/'
  | 'b' => some '\x08'
  | 'f' => some '\x0c'
  | 'n' => some '\n'
  | 'r' => some '\r'
  | 't' => some '\t'
  | _ => none

def isHighSurrogate (n : Nat) : Bool := 0xD800 ≤ n && n < 0xDC00

def isLowSurrogate (n : Nat) : Bool := 0xDC00 ≤ n && n < 0xE000

/-- The rest of a string after its opening quote. A high surrogate needs a low one behind it. -/
def readString : List Char → Option (List Char × List Char)
  | [] => none
  | '"' :: rest => some ([], rest)
  | '\\' :: 'u' :: a :: b :: c :: d :: rest => do
    let n ← hexUnit? a b c d
    if isLowSurrogate n then none
    else if isHighSurrogate n then
      match rest with
      | '\\' :: 'u' :: a :: b :: c :: d :: rest =>
        let m ← hexUnit? a b c d
        if isLowSurrogate m then
          let (s, tail) ← readString rest
          some (Char.ofNat (0x10000 + (n - 0xD800) * 0x400 + (m - 0xDC00)) :: s, tail)
        else none
      | _ => none
    else
      let (s, tail) ← readString rest
      some (Char.ofNat n :: s, tail)
  | '\\' :: e :: rest => do
    let c ← simpleEscape? e
    let (s, tail) ← readString rest
    some (c :: s, tail)
  | c :: rest =>
    if c.toNat < 0x20 ∨ c = '\\' then none
    else do
      let (s, tail) ← readString rest
      some (c :: s, tail)

/-- `significand * 10 ^ exponent`, by repeated division when the exponent is below the powers of
ten that a float holds. Nothing is answered when the result would be infinite. -/
def scaled (significand : Binary64) (exponent : Int) : Option Binary64 :=
  if h : exponent < -308 then
    if significand.isZero then some significand
    else scaled (significand.div (.ofInt (10 ^ 308))) (exponent + 308)
  else if exponent < 0 then some (significand.div (.ofInt (10 ^ exponent.natAbs)))
  else if 308 < exponent then if significand.isZero then some significand else none
  else
    let x := significand.mul (.ofInt (10 ^ exponent.natAbs))
    if x.isInfinite then none else some x
termination_by (-exponent).toNat
decreasing_by omega

def maxSignificand : Nat := 2 ^ 64 - 1

/-- Takes digits onto `n` as long as the result fits 64 bits, and counts them. -/
def takeDigits : Nat → List Char → Nat × Nat × List Char
  | n, [] => (n, 0, [])
  | n, c :: rest =>
    match digitValue? c with
    | some d =>
      if 10 * n + d ≤ maxSignificand then
        let (m, count, tail) := takeDigits (10 * n + d) rest
        (m, count + 1, tail)
      else (n, 0, c :: rest)
    | none => (n, 0, c :: rest)

def maxExponent : Int := 2 ^ 31 - 1

def clampExponent (e : Int) : Int :=
  max (-(2 ^ 31)) (min maxExponent e)

def floatOf (negative : Bool) (x : Binary64) : Option Json :=
  let y := Binary64.ofMagnitude negative x.magnitude
  if h : y.isFinite = true then some (.float ⟨y, h⟩) else none

/-- Finishes a float whose digits are read: an exponent may follow. -/
def readScaled (negative : Bool) (significand : Nat) (exponent : Int) (cs : List Char) :
    Option (Json × List Char) :=
  let finish (e : Int) (rest : List Char) : Option (Json × List Char) := do
    let x ← scaled (.ofInt significand) e
    return (← floatOf negative x, rest)
  match cs with
  | c :: rest =>
    if c = 'e' ∨ c = 'E' then
      let (down, rest) := match rest with
        | '+' :: rest => (false, rest)
        | '-' :: rest => (true, rest)
        | rest => (false, rest)
      let ds := rest.takeWhile Char.isDigit
      let tail := rest.dropWhile Char.isDigit
      if ds.isEmpty then none
      else if maxExponent < ofDigits ds then
        if significand ≠ 0 ∧ !down then none
        else (floatOf negative .zero).map (·, tail)
      else
        let e : Int := if down then -(ofDigits ds : Int) else ofDigits ds
        finish (clampExponent (exponent + e)) tail
    else finish exponent cs
  | [] => finish exponent []

/-- Reads digits after a point; digits beyond 64 bits are passed over. -/
def readFraction (negative : Bool) (significand : Nat) (exponent : Int) (cs : List Char) :
    Option (Json × List Char) :=
  match cs with
  | [] => none
  | c :: _ =>
    if c.isDigit then
      let (m, count, tail) := takeDigits significand cs
      readScaled negative m (exponent - count) (tail.dropWhile Char.isDigit)
    else none

/-- The integer with the given sign and digits; the negative zero is a float. -/
def integerOf (negative : Bool) (n : Nat) : Option Json :=
  if h : negative = false ∧ n ≤ maxSignificand then
    some (.whole ⟨n, by omega, by have := h.2; simp [maxSignificand] at this; omega⟩)
  else if h : n ≠ 0 ∧ n ≤ 2 ^ 63 then
    some (.whole ⟨-n, by omega, by omega⟩)
  else floatOf negative (.ofInt n)

def readMagnitude (negative : Bool) (cs : List Char) : Option (Json × List Char) :=
  let start? : Option (Nat × Nat × List Char) := match cs with
    | '0' :: rest =>
      match rest with
      | c :: _ => if c.isDigit then none else some (0, 1, rest)
      | [] => some (0, 1, [])
    | c :: _ => if c.isDigit then some (takeDigits 0 cs) else none
    | [] => none
  match start? with
  | none => none
  | some (n, _, tail) =>
    let dropped := (tail.takeWhile Char.isDigit).length
    match tail.dropWhile Char.isDigit with
    | '.' :: rest => readFraction negative n dropped rest
    | c :: rest =>
      if c = 'e' ∨ c = 'E' ∨ dropped ≠ 0 then readScaled negative n dropped (c :: rest)
      else (integerOf negative n).map (·, c :: rest)
    | [] =>
      if dropped ≠ 0 then readScaled negative n dropped []
      else (integerOf negative n).map (·, [])

mutual

/-- Reads one value. `fuel` bounds the steps and `depth` the nesting that is left. -/
def readValue : Nat → Nat → List Char → Option (Json × List Char)
  | 0, _, _ => none
  | fuel + 1, depth, cs =>
    match skipSpace cs with
    | 'n' :: 'u' :: 'l' :: 'l' :: rest => some (.null, rest)
    | 't' :: 'r' :: 'u' :: 'e' :: rest => some (.bool true, rest)
    | 'f' :: 'a' :: 'l' :: 's' :: 'e' :: rest => some (.bool false, rest)
    | '"' :: rest => (readString rest).map fun (s, tail) => (.text (String.ofList s), tail)
    | '[' :: rest =>
      match depth with
      | 0 => none
      | depth + 1 =>
        match skipSpace rest with
        | ']' :: tail => some (.array [], tail)
        | rest => (readItems fuel depth rest).map fun (items, tail) => (.array items, tail)
    | '-' :: rest => readMagnitude true rest
    | c :: rest =>
      if c.toNat = 0x7B then
        match depth with
        | 0 => none
        | depth + 1 =>
          match skipSpace rest with
          | [] => none
          | d :: tail =>
            if d.toNat = 0x7D then some (.object [], tail)
            else (readMembers fuel depth (d :: tail)).map fun (members, tail) =>
              (.ofMembers members, tail)
      else readMagnitude false (c :: rest)
    | [] => none

def readItems : Nat → Nat → List Char → Option (List Json × List Char)
  | 0, _, _ => none
  | fuel + 1, depth, cs =>
    match readValue fuel depth cs with
    | none => none
    | some (j, rest) =>
      match skipSpace rest with
      | ',' :: rest => (readItems fuel depth rest).map fun (items, tail) => (j :: items, tail)
      | ']' :: tail => some ([j], tail)
      | _ => none

def readMembers : Nat → Nat → List Char → Option (List (String × Json) × List Char)
  | 0, _, _ => none
  | fuel + 1, depth, cs =>
    match skipSpace cs with
    | '"' :: rest =>
      match readString rest with
      | none => none
      | some (k, rest) =>
        match skipSpace rest with
        | ':' :: rest =>
          match readValue fuel depth rest with
          | none => none
          | some (j, rest) =>
            match skipSpace rest with
            | ',' :: rest =>
              (readMembers fuel depth rest).map fun (members, tail) =>
                ((String.ofList k, j) :: members, tail)
            | d :: tail =>
              if d.toNat = 0x7D then some ([(String.ofList k, j)], tail) else none
            | [] => none
        | _ => none
    | _ => none

end

def maxDepth : Nat := 127

/-- Reads a text that holds one value and nothing else but blanks. -/
def parse? (s : String) : Option Json :=
  let cs := s.toList
  match readValue (2 * cs.length + 2) maxDepth cs with
  | some (j, rest) => if (skipSpace rest).isEmpty then some j else none
  | none => none

end QueryChain.Json
