import QueryChain.Number.Layout
import QueryChain.Number.Numeral
import QueryChain.Text.Blank
import QueryChain.Time.Moment

/-!
Formats of moments: texts whose letters behind a percent sign stand for parts of a moment, the
specifiers that `chrono` documents under these letters. A format is written from its first letter to
its last, and read as a sequence of pieces. `strictPieces` is the date and time of RFC 3339.
-/

namespace QueryChain.Time

open Number Text

/-- At least four digits; years outside 0 to 9999 carry a sign. -/
def yearChars (year : Int) : List Char :=
  if year < 0 then '-' :: padded 4 year.natAbs
  else if 9999 < year then '+' :: padded 4 year.natAbs
  else padded 4 year.natAbs

/-- A point and the fewest of 0, 3, 6 or 9 digits that lose nothing. -/
def fractionChars (nano : Nat) : List Char :=
  if nano = 0 then []
  else if nano % 1000000 = 0 then '.' :: padded 3 (nano / 1000000)
  else if nano % 1000 = 0 then '.' :: padded 6 (nano / 1000)
  else '.' :: padded 9 nano

/-- Hours, minutes, seconds and fraction; a leap second is counted as second 60. -/
def clockChars (second nano : Nat) : List Char :=
  padded 2 (second / 3600) ++ ':' :: padded 2 (second / 60 % 60) ++
    ':' :: padded 2 (second % 60 + nano / nanosInSecond) ++ fractionChars (nano % nanosInSecond)

inductive Field
  | month
  | day
  | hour
  | minute
  | second

def Field.code : Field → Char
  | .month => 'm'
  | .day => 'd'
  | .hour => 'H'
  | .minute => 'M'
  | .second => 'S'

def Field.ofCode? : Char → Option Field
  | 'm' => some .month
  | 'd' => some .day
  | 'H' => some .hour
  | 'M' => some .minute
  | 'S' => some .second
  | _ => none

def Field.value (t : Moment) : Field → Nat
  | .month => t.date.month
  | .day => t.date.day
  | .hour => t.hour
  | .minute => t.minute
  | .second => t.second % 60 + t.nano / nanosInSecond

/-- Writes a moment in a format; an unknown specifier ends the text. -/
def formatChars (t : Moment) : List Char → List Char
  | [] => []
  | '%' :: 'Y' :: format => yearChars t.date.year ++ formatChars t format
  | '%' :: '.' :: 'f' :: format => fractionChars (t.nano % nanosInSecond) ++ formatChars t format
  | '%' :: c :: format =>
    match Field.ofCode? c with
    | some field => padded 2 (field.value t) ++ formatChars t format
    | none => []
  | c :: format => c :: formatChars t format

/-- What a format collects from a text; an offset is in seconds east. -/
structure Reading where
  year : Option Int := none
  month : Option Nat := none
  day : Option Nat := none
  hour : Option Nat := none
  minute : Option Nat := none
  second : Option Nat := none
  nano : Option Nat := none
  offset : Option Int := none

def Reading.get? (r : Reading) : Field → Option Nat
  | .month => r.month
  | .day => r.day
  | .hour => r.hour
  | .minute => r.minute
  | .second => r.second

def Reading.set (r : Reading) : Field → Nat → Reading
  | .month, n => { r with month := some n }
  | .day, n => { r with day := some n }
  | .hour, n => { r with hour := some n }
  | .minute, n => { r with minute := some n }
  | .second, n => { r with second := some n }

/-- A piece of a text that is read. Loose pieces pass over blanks and need not fill their width. -/
inductive Piece
  | year
  | looseYear
  | number (field : Field)
  | looseNumber (field : Field)
  | fraction
  | blanks
  | mark (allowed : List Char)
  | zone
  | looseZone

def leadingDigits (most : Nat) (cs : List Char) : List Char :=
  (cs.take most).takeWhile Char.isDigit

def readNumber? (least most : Nat) (cs : List Char) : Option (Nat × List Char) :=
  let ds := leadingDigits most cs
  if ds.length < least then none else some (ofDigits ds, cs.drop ds.length)

/-- Reads a year: up to four digits, or any number of them behind a sign. -/
def readYear? (cs : List Char) : Option (Int × List Char) :=
  match cs with
  | '-' :: rest => (readNumber? 1 rest.length rest).map fun (n, tail) => (-(n : Int), tail)
  | '+' :: rest => (readNumber? 1 rest.length rest).map fun (n, tail) => ((n : Int), tail)
  | cs => (readNumber? 1 4 cs).map fun (n, tail) => ((n : Int), tail)

/-- Reads an optional fraction of a second; digits past the ninth are passed over. -/
def readFraction? (cs : List Char) : Option (Option Nat × List Char) :=
  match cs with
  | '.' :: rest =>
    let ds := leadingDigits 9 rest
    if ds.isEmpty then none
    else some (some (ofDigits ds * 10 ^ (9 - ds.length)), rest.dropWhile Char.isDigit)
  | cs => some (none, cs)

def readSign? : List Char → Option (Bool × List Char)
  | '+' :: rest => some (false, rest)
  | '-' :: rest | '\u2212' :: rest => some (true, rest)
  | _ => none

def readOffset? (separate : List Char → Option (List Char)) (cs : List Char) :
    Option (Int × List Char) := do
  let (negative, cs) ← readSign? cs
  let (hours, cs) ← readNumber? 2 2 cs
  let cs ← separate cs
  let (minutes, cs) ← readNumber? 2 2 cs
  if hours < 24 ∧ minutes < 60 then
    let seconds : Int := hours * 3600 + minutes * 60
    some (if negative then -seconds else seconds, cs)
  else none

/-- Reads a zone as a `Z` or as an offset with a colon. -/
def readZone? (cs : List Char) : Option (Int × List Char) :=
  match cs with
  | 'Z' :: rest | 'z' :: rest => some (0, rest)
  | cs =>
    readOffset? (fun
      | ':' :: rest => some rest
      | _ => none) cs

/-- Reads an offset whose parts may be joined directly, by colons or by blanks. -/
def readLooseZone? (cs : List Char) : Option (Int × List Char) :=
  readOffset? (fun cs => some (cs.dropWhile fun c => c = ':' || isBlank c)) (cs.dropWhile isBlank)

def Piece.read? (r : Reading) (cs : List Char) : Piece → Option (Reading × List Char)
  | .year => (readNumber? 4 4 cs).map fun (n, rest) => ({ r with year := some n }, rest)
  | .looseYear =>
    (readYear? (cs.dropWhile isBlank)).map fun (n, rest) => ({ r with year := some n }, rest)
  | .number field => (readNumber? 2 2 cs).map fun (n, rest) => (r.set field n, rest)
  | .looseNumber field =>
    (readNumber? 1 2 (cs.dropWhile isBlank)).map fun (n, rest) => (r.set field n, rest)
  | .fraction => (readFraction? cs).map fun (n, rest) => ({ r with nano := n.or r.nano }, rest)
  | .blanks => some (r, cs.dropWhile isBlank)
  | .mark allowed =>
    match cs with
    | c :: rest => if c ∈ allowed then some (r, rest) else none
    | [] => none
  | .zone => (readZone? cs).map fun (n, rest) => ({ r with offset := some n }, rest)
  | .looseZone => (readLooseZone? cs).map fun (n, rest) => ({ r with offset := some n }, rest)

def readPieces? (r : Reading) : List Piece → List Char → Option Reading
  | [], [] => some r
  | [], _ :: _ => none
  | p :: pieces, cs =>
    match p.read? r cs with
    | some (r, rest) => readPieces? r pieces rest
    | none => none

def piecesOf? : List Char → Option (List Piece)
  | [] => some []
  | '%' :: 'Y' :: format => (piecesOf? format).map (.looseYear :: ·)
  | '%' :: '.' :: 'f' :: format => (piecesOf? format).map (.fraction :: ·)
  | '%' :: ':' :: 'z' :: format => (piecesOf? format).map (.looseZone :: ·)
  | '%' :: c :: format =>
    match Field.ofCode? c with
    | some field => (piecesOf? format).map (.looseNumber field :: ·)
    | none => none
  | c :: format =>
    (piecesOf? format).map ((if isBlank c then .blanks else .mark [c]) :: ·)

def readFormat? (format cs : List Char) : Option Reading :=
  (piecesOf? format).bind fun pieces => readPieces? {} pieces cs

/-- The moment that a reading names, without regard to an offset. Seconds may be missing, but not
before a fraction. -/
def Reading.wallClock? (r : Reading) : Option Moment := do
  let date ← Date.ofParts? (← r.year) (← r.month) (← r.day)
  let nano := r.nano.getD 0
  match r.second with
  | none =>
    if r.nano.isSome then none else Moment.ofClock? date (← r.hour) (← r.minute) 0 0
  | some second =>
    if second = 60 then
      Moment.ofClock? date (← r.hour) (← r.minute) 59 (nanosInSecond + nano)
    else Moment.ofClock? date (← r.hour) (← r.minute) second nano

/-- The moment that a reading with an offset names, the offset being taken away. -/
def Reading.zoned? (r : Reading) : Option Moment := do
  let t ← r.wallClock?
  t.addSeconds? (-(← r.offset))

def Reading.date? (r : Reading) : Option Date := do
  Date.ofParts? (← r.year) (← r.month) (← r.day)

/-- The strict form of a date and a time with a zone. -/
def strictPieces : List Piece :=
  [.year, .mark ['-'], .number .month, .mark ['-'], .number .day, .mark ['T', 't', ' '],
    .number .hour, .mark [':'], .number .minute, .mark [':'], .number .second, .fraction, .zone]

end QueryChain.Time
