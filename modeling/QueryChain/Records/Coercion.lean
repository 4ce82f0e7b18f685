import QueryChain.Row
import QueryChain.Value.Shown

/-!
Coercion of field values. Values that are stored and operands that are compared with them go
through the same coercion, so that texts of numbers, dates and times compare by their meaning.
-/

namespace QueryChain

open Number Text Time

inductive CoercionFault
  | integer (text : String) (fault : NumeralFault)
  | number (text : String)
  | timestamp (text : String)
  | date (text : String)
  | unixTime (seconds : Int64)
  | unsupported (got : ValueKind) (kind : String)
  | stated (words : String)

def CoercionFault.message : CoercionFault → String
  | .integer text fault => "'" ++ text ++ "' is not an integer: " ++ fault.message
  | .number text =>
    "'" ++ text ++ "' is not a number: " ++
      if (trim text).isEmpty then "cannot parse float from empty string"
      else "invalid float literal"
  | .timestamp text => "'" ++ text ++ "' is not an ISO 8601 timestamp"
  | .date text => "'" ++ text ++ "' is not an ISO 8601 date"
  | .unixTime seconds => intText seconds.toInt ++ " is out of range for a unix timestamp"
  | .unsupported got kind => "cannot coerce " ++ got.name ++ " to " ++ kind
  | .stated words => words

abbrev Coerced := Except CoercionFault Value

/-- How the values of a field are brought to one form. -/
inductive FieldKind
  | integer
  | float
  | decimal
  | text
  | bool
  | time
  | date
  | passthrough
  | custom (coerce : Value → Coerced)

namespace FieldKind

def name : FieldKind → String
  | .integer => "Integer"
  | .float => "Float"
  | .decimal => "Decimal"
  | .text => "Text"
  | .bool => "Bool"
  | .time => "Time"
  | .date => "Date"
  | .passthrough => "Passthrough"
  | .custom _ => "Custom(..)"

/-- Whole numbers: fractions are cut off and numerals read. -/
def toInteger : Value → Coerced
  | .int n => .ok (.int n)
  | .float x =>
    if x.isFinite then
      .ok (.int (Int64.ofInt (max (-(2 ^ 63)) (min (2 ^ 63 - 1) x.truncate))))
    else .error (.unsupported .float "integer")
  | .bool b => .ok (.int (if b then 1 else 0))
  | .text s =>
    match readInt64 (trim s) with
    | .ok n => .ok (.int n)
    | .error fault => .error (.integer s fault)
  | v => .error (.unsupported v.kind "integer")

def toFloat : Value → Coerced
  | .int n => .ok (.float (.ofInt n.toInt))
  | .float x => .ok (.float x)
  | .bool b => .ok (.float (if b then .one else .zero))
  | .text s =>
    match readBinary64? (trim s) with
    | some x => .ok (.float x)
    | none => .error (.number s)
  | v => .error (.unsupported v.kind "float")

end FieldKind

namespace Libraries

variable (lib : Libraries)

def toTime : Value → Coerced
  | .timestamp t => .ok (.timestamp t)
  | .text s =>
    match lib.time.readIso? s with
    | some t => .ok (.timestamp t)
    | none => .error (.timestamp s)
  | v => .error (.unsupported v.kind "timestamp")

/-- Moments, read from ISO 8601 text or counted in seconds from 1970; second 0 is null. -/
def toDate : Value → Coerced
  | .text s =>
    match lib.time.readIso? s with
    | some t => .ok (.timestamp t)
    | none => .error (.date s)
  | .int n =>
    if n = 0 then .ok .null
    else match Moment.ofUnixSeconds? n.toInt with
      | some t => .ok (.timestamp t)
      | none => .error (.unixTime n)
  | v => .ok v

def coerceNative (kind : FieldKind) (v : Value) : Coerced :=
  match kind with
  | .integer => FieldKind.toInteger v
  | .float | .decimal => FieldKind.toFloat v
  | .text => .ok (if v.isTruthy then .text (lib.toText v) else .null)
  | .bool => .ok (.bool v.isTruthy)
  | .time => lib.toTime v
  | .date => lib.toDate v
  | .passthrough => .ok v
  | .custom coerce => coerce v

/-- The coerced form of a value; a JSON scalar is taken as the native value it is. -/
def coerce (kind : FieldKind) (v : Value) : Coerced :=
  match v with
  | .json j => lib.coerceNative kind (if j.isContainer then .json j else .ofJson j)
  | v => lib.coerceNative kind v

end Libraries

def FieldKind.coerce (kind : FieldKind) (v : Value) : Coerced :=
  Libraries.own.coerce kind v

structure Registry where
  kinds : List (String × FieldKind) := []

namespace Registry

def ofList (fields : List (String × FieldKind)) : Registry :=
  ⟨sortedEntries fields⟩

def get? (r : Registry) (field : String) : Option FieldKind :=
  r.kinds.lookup field

def isEmpty (r : Registry) : Bool :=
  r.kinds.isEmpty

/-- The coerced value of a field. Null stays null, and a value without a coerced form stays as
it is. -/
def coerce (r : Registry) (field : String) (v : Value) : Value :=
  if v.isNull then .null
  else match r.get? field with
    | none => v
    | some kind =>
      match kind.coerce v with
      | .ok w => w
      | .error _ => v

end Registry

end QueryChain
