import QueryChain.Number.Numeral
import QueryChain.Time.Date
import QueryChain.Toml.Basic

/-!
TOML values that are single words: truth values, numbers and moments. Each reader takes the whole
word.
-/

namespace QueryChain.Toml

open Number Time

/-- The digits of a group whose underscores each stand between two digits. -/
def ungrouped? (p : Char → Bool) : List Char → Option (List Char)
  | [] => none
  | [c] => if p c then some [c] else none
  | c :: '_' :: rest => if p c then (ungrouped? p rest).map (c :: ·) else none
  | c :: rest => if p c then (ungrouped? p rest).map (c :: ·) else none

/-- Decimal digits without a superfluous zero in front. -/
def wholeDigits? (cs : List Char) : Option (List Char) :=
  match ungrouped? Char.isDigit cs with
  | some ('0' :: _ :: _) => none
  | ds => ds

/-- The rest of a word behind its sign, and whether that is a minus. -/
def signed : List Char → Bool × List Char
  | '-' :: rest => (true, rest)
  | '+' :: rest => (false, rest)
  | cs => (false, cs)

def held (n : Int) : Toml :=
  if -(2 ^ 127) ≤ n ∧ n < 2 ^ 128 then .integer n else .beyond

/-- Reads the digits of an integer whose base is given by its first two characters. -/
def radixInteger? (base : Nat) (cs : List Char) : Option Toml := do
  let isDigit (c : Char) : Bool := (hexValue? c).any (· < base)
  let ds ← ungrouped? isDigit cs
  some (held (ds.foldl (fun n c => base * n + (hexValue? c).getD 0) 0 : Nat))

def integer? (cs : List Char) : Option Toml :=
  match cs with
  | '0' :: 'x' :: rest => radixInteger? 16 rest
  | '0' :: 'o' :: rest => radixInteger? 8 rest
  | '0' :: 'b' :: rest => radixInteger? 2 rest
  | cs =>
    let (negative, cs) := signed cs
    (wholeDigits? cs).map fun ds =>
      held (if negative then -(ofDigits ds : Int) else ofDigits ds)

def exponent? : List Char → Option Int
  | [] => some 0
  | c :: rest =>
    if c = 'e' ∨ c = 'E' then
      let (negative, cs) := signed rest
      (ungrouped? Char.isDigit cs).map fun ds =>
        if negative then -(ofDigits ds : Int) else ofDigits ds
    else none

def decimal? (cs : List Char) : Option Toml := do
  let (negative, cs) := signed cs
  let isPart (c : Char) : Bool := c.isDigit || c == '_'
  let whole ← wholeDigits? (cs.takeWhile isPart)
  let (fraction, rest) ← match cs.dropWhile isPart with
    | '.' :: rest => do
      let ds ← ungrouped? Char.isDigit (rest.takeWhile isPart)
      some (ds, rest.dropWhile isPart)
    | rest => some ([], rest)
  let e ← exponent? rest
  let x := Binary64.ofDecimal negative (ofDigits (whole ++ fraction)) (e - fraction.length)
  some (if x.isInfinite then .beyond else .float)

def float? (cs : List Char) : Option Toml :=
  let (_, word) := signed cs
  if word = ['i', 'n', 'f'] ∨ word = ['n', 'a', 'n'] then some .float else decimal? cs

def pair? (a b : Char) : Option Nat := do
  return 10 * (← digitValue? a) + (← digitValue? b)

def date? (cs : List Char) : Option (List Char) :=
  match cs with
  | a :: b :: c :: d :: '-' :: e :: f :: '-' :: g :: h :: rest => do
    let year := 100 * (← pair? a b) + (← pair? c d)
    let _ ← Date.ofParts? year (← pair? e f) (← pair? g h)
    some rest
  | _ => none

/-- Reads hours and minutes, and seconds with a fraction if they follow. -/
def clock? (cs : List Char) : Option (List Char) :=
  match cs with
  | a :: b :: ':' :: c :: d :: rest => do
    let hour ← pair? a b
    let minute ← pair? c d
    if 23 < hour ∨ 59 < minute then none
    else match rest with
      | ':' :: e :: f :: rest => do
        let second ← pair? e f
        if 60 < second then none
        else match rest with
          | '.' :: rest =>
            if (rest.takeWhile Char.isDigit).isEmpty then none
            else some (rest.dropWhile Char.isDigit)
          | rest => some rest
      | rest => some rest
  | _ => none

def isZone : List Char → Bool
  | [] | ['Z'] | ['z'] => true
  | [s, a, b, ':', c, d] =>
    (s == '+' || s == '-') && (pair? a b).any (· ≤ 23) && (pair? c d).any (· ≤ 59)
  | _ => false

def moment? (cs : List Char) : Option Toml :=
  let found := match date? cs with
    | some [] => true
    | some (c :: rest) => (c == 'T' || c == 't' || c == ' ') && (clock? rest).any isZone
    | none => clock? cs == some []
  if found then some .moment else none

def scalar? (cs : List Char) : Option Toml :=
  if cs = ['t', 'r', 'u', 'e'] then some (.flag true)
  else if cs = ['f', 'a', 'l', 's', 'e'] then some (.flag false)
  else integer? cs <|> float? cs <|> moment? cs

end QueryChain.Toml
