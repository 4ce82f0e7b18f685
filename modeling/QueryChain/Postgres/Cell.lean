import QueryChain.Json.Reader
import QueryChain.Postgres.Address
import QueryChain.Postgres.Basic
import QueryChain.Postgres.Numeric
import QueryChain.Postgres.Parameter

/-!
Cells of a result: the value that the bytes of a column of some type stand for. Types without a
value of their own become text where they have one, and a blob otherwise.
-/

namespace QueryChain.Postgres

open Number Text Time

def hexChars (bytes : Bytes) : List Char :=
  bytes.flatMap fun b => [Nat.digitChar (b.toNat / 16), Nat.digitChar (b.toNat % 16)]

def uuidText (bytes : Bytes) : String :=
  let group (start count : Nat) : List Char := hexChars ((bytes.drop start).take count)
  String.ofList (joinChars ['-'] [group 0 4, group 4 2, group 6 2, group 8 2, group 10 6])

def microsInDay : Int := secondsInDay * 1000000

/-- The time of day that a number of microseconds from midnight comes to, round the clock. -/
def clockText (micros : Int) : String :=
  let n := (micros % microsInDay).toNat
  String.ofList (clockChars (n / 1000000) (n % 1000000 * 1000))

def dayOf? (days : Int) : Option Date :=
  Date.ofDayNumber? (epochDay + days)

def momentOf? (micros : Int) : Option Moment :=
  (Moment.ofUnixSeconds? (epochDay * secondsInDay + micros / 1000000)).map fun t =>
    { t with
      nano := (micros % 1000000).toNat * 1000
      bounded := by simp only [nanosInSecond]; omega }

/-- A JSON value; the binary type has its version in front. -/
def jsonOf? (t : PgType) (bytes : Bytes) : Option Json := do
  let text ← if t = .jsonb then
      match bytes with
      | 1 :: rest => some rest
      | _ => none
    else some bytes
  Json.parse? (← ofUtf8? text)

/-- Reads so many elements, each behind its length, and nothing else; a negative length is null. -/
def readElements : Nat → Bytes → Option (List (Option Bytes))
  | 0, bytes => if bytes.isEmpty then some [] else none
  | count + 1, bytes => do
    let (length, rest) ← takeBytes? 4 bytes
    if toInt length < 0 then return none :: (← readElements count rest)
    else
      let (element, rest) ← takeBytes? (toNat length) rest
      return some element :: (← readElements count rest)

/-- Reads an array of at most one dimension. Its flags, element type and lower bound are passed
over. -/
def readArray? (bytes : Bytes) : Option (List (Option Bytes)) := do
  let (dimensions, rest) ← takeBytes? 4 bytes
  let (_, rest) ← takeBytes? 8 rest
  if toNat dimensions = 0 then readElements 0 rest
  else if toNat dimensions = 1 then
    let (length, rest) ← takeBytes? 4 rest
    let (_, rest) ← takeBytes? 4 rest
    if toInt length < 0 then none else readElements (toNat length) rest
  else none

def decode? : PgType → Bytes → Option Value
  | .bool, bytes => (exactly? 1 bytes).map fun b => .bool (toNat b != 0)
  | .int2, bytes => (exactly? 2 bytes).map fun b => .int (Int64.ofInt (toInt b))
  | .int4, bytes => (exactly? 4 bytes).map fun b => .int (Int64.ofInt (toInt b))
  | .int8, bytes => (exactly? 8 bytes).map fun b => .int (Int64.ofInt (toInt b))
  | .oid, bytes => (exactly? 4 bytes).map fun b => .int (Int64.ofNat (toNat b))
  | .float4, bytes => (exactly? 4 bytes).map fun b => .ofBinary32 ⟨UInt32.ofNat (toNat b)⟩
  | .float8, bytes => (exactly? 8 bytes).map fun b => .float ⟨UInt64.ofNat (toNat b)⟩
  | .numeric, bytes => ((Numeric.ofBytes? bytes).bind Numeric.text?).map .text
  | .text, bytes | .varchar, bytes | .bpchar, bytes | .name, bytes | .unknown, bytes
  | .enum _, bytes => (ofUtf8? bytes).map .text
  | .uuid, bytes => (exactly? 16 bytes).map fun b => .text (uuidText b)
  | .time, bytes => (exactly? 8 bytes).map fun b => .text (clockText (toInt b))
  | .date, bytes => ((exactly? 4 bytes).bind fun b => dayOf? (toInt b)).map .ofDate
  | .timestamp, bytes | .timestamptz, bytes =>
    ((exactly? 8 bytes).bind fun b => momentOf? (toInt b)).map .timestamp
  | .json, bytes => (jsonOf? .json bytes).map .json
  | .jsonb, bytes => (jsonOf? .jsonb bytes).map .json
  | .inet, bytes => (addressText? bytes).map .text
  | .bytea, bytes | .other _, bytes => some (.blob bytes)
  | .domain _ base, bytes => decode? base bytes
  | .array _ element, bytes => do
    let cells ← readArray? bytes
    return .list (← cells.mapM fun
      | some cell => decode? element cell
      | none => some .null)

end QueryChain.Postgres
