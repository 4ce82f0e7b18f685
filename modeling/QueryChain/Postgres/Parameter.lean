import QueryChain.Json.Reader
import QueryChain.Postgres.Basic
import QueryChain.Postgres.Wire
import QueryChain.Text.Utf8
import QueryChain.Value.Shown

/-!
Values as parameters: the bytes in which a value is sent to a parameter of a given type.
-/

namespace QueryChain

open Number Text Time

namespace Postgres

inductive EncodeFault
  | mismatch (kind : ValueKind) (type : PgType)
  | range (fault : NumeralFault)
  | moment (text : String)
  | json
  deriving DecidableEq

def EncodeFault.message : EncodeFault → String
  | .mismatch kind type => "cannot bind " ++ kind.name ++ " to a column of type " ++ type.typeName
  | .range fault => fault.message
  | .moment text => "'" ++ text ++ "' is not an ISO 8601 timestamp"
  | .json => "invalid JSON"

abbrev Encoded := Except EncodeFault Bytes

def epochDay : Int := 10957

def microseconds (t : Moment) : Int :=
  (t.unixNanos - epochDay * secondsInDay * nanosInSecond).tdiv 1000

def encodeText (s : String) : Encoded :=
  .ok (utf8Bytes s)

/-- A JSON value as text; the binary type marks its version in front. -/
def encodeJson (t : PgType) (j : Json) : Encoded :=
  .ok ((if t = .jsonb then [1] else []) ++ utf8Bytes j.render)

def encodeWithin (width : Nat) (low high n : Int) : Encoded :=
  if n < low then .error (.range .tooSmall)
  else if high < n then .error (.range .tooLarge)
  else .ok (ofInt width n)

def encodeInt (t : PgType) (n : Int64) : Encoded :=
  match t with
  | .int2 => encodeWithin 2 (-(2 ^ 15)) (2 ^ 15 - 1) n.toInt
  | .int4 => encodeWithin 4 (-(2 ^ 31)) (2 ^ 31 - 1) n.toInt
  | .int8 => .ok (ofInt 8 n.toInt)
  | .oid => encodeWithin 4 0 (2 ^ 32 - 1) n.toInt
  | .float4 => .ok (ofNat 4 (Binary32.ofInt n.toInt).bits.toNat)
  | .float8 => .ok (ofNat 8 (Binary64.ofInt n.toInt).bits.toNat)
  | .bool => .ok [if n = 0 then 0 else 1]
  | .text | .varchar | .bpchar | .name => encodeText (intText n.toInt)
  | .json | .jsonb => encodeJson t (.ofInt64 n)
  | _ => .error (.mismatch .int t)

def encodeFloat (t : PgType) (x : Binary64) : Encoded :=
  match t with
  | .float4 => .ok (ofNat 4 (Binary32.narrow x).bits.toNat)
  | .float8 => .ok (ofNat 8 x.bits.toNat)
  | .json | .jsonb => encodeJson t (Value.float x).toJson
  | _ => .error (.mismatch .float t)

def encodeMoment (t : PgType) (m : Moment) : Encoded :=
  match t with
  | .date => .ok (ofInt 4 (m.date.dayNumber - epochDay))
  | .text | .varchar => encodeText m.isoText
  | _ => .ok (ofInt 8 (microseconds m))

/-- A text is sent as it stands where it is neither JSON nor a moment. -/
def encodeTextAs (t : PgType) (s : String) : Encoded :=
  match t with
  | .json | .jsonb =>
    match Json.parse? s with
    | some j => encodeJson t j
    | none => .error .json
  | .timestamp | .timestamptz | .date =>
    match readIso? s with
    | some m => encodeMoment t m
    | none => .error (.moment s)
  | _ => encodeText s

/-- A container goes into JSON columns, and into text columns as its JSON text. -/
def encodeContainer (t : PgType) (v : Value) : Encoded :=
  match t with
  | .json | .jsonb => encodeJson t v.toJson
  | .text | .varchar => encodeText v.toJson.render
  | _ => .error (.mismatch v.kind t)

def encodeNative (t : PgType) : Value → Except EncodeFault (Option Bytes)
  | .null => .ok none
  | .bool b => .ok (some [if b then 1 else 0])
  | .int n => (encodeInt t n).map some
  | .float x => (encodeFloat t x).map some
  | .text s => (encodeTextAs t s).map some
  | .blob bytes => .ok (some bytes)
  | .timestamp m => (encodeMoment t m).map some
  | v => (encodeContainer t v).map some

/-- The bytes of a value. A JSON scalar is sent as JSON where the type takes JSON or text, and like
a native value elsewhere. -/
def encode (t : PgType) (v : Value) : Except EncodeFault (Option Bytes) :=
  match v, t with
  | .json _, .json | .json _, .jsonb | .json _, .text | .json _, .varchar =>
    (encodeContainer t v).map some
  | .json j, _ => encodeNative t (Value.ofJson j)
  | v, _ => encodeNative t v

end Postgres

end QueryChain
