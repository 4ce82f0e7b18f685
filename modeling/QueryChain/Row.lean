import QueryChain.Failure

/-!
Rows of a result: columns with their values, in order. A column may occur more than once; reading
by name takes its first occurrence.
-/

namespace QueryChain

open Number Time

structure Row where
  cells : List (String × Value)
  deriving Inhabited

abbrev Decoded (α : Type) := Except DecodeFault α

namespace Libraries

variable (lib : Libraries)

/-- Reads a moment, or the ISO 8601 text of one. -/
def decodeMoment : Value → Decoded Moment
  | .timestamp t => .ok t
  | .text s =>
    match lib.time.readIso? s with
    | some t => .ok t
    | none => .error (.timestamp s)
  | v => .error (.mismatch .timestamp v.kind)

/-- Reads a JSON value; a text is taken for JSON text. -/
def decodeJson : Value → Decoded Json
  | .text s =>
    match lib.json.parse? s with
    | some j => .ok j
    | none => .error .json
  | v => .ok (lib.toJson v)

end Libraries

namespace Value

def decodeInt64 (v : Value) : Decoded Int64 :=
  match v.asInt? with
  | some n => .ok n
  | none => .error (.mismatch .int v.kind)

def decodeBetween (low high : Int) (v : Value) : Decoded Int :=
  match v.decodeInt64 with
  | .error e => .error e
  | .ok n =>
    if n.toInt < low then .error (.range .tooSmall)
    else if high < n.toInt then .error (.range .tooLarge)
    else .ok n.toInt

def decodeInt32 (v : Value) : Decoded Int :=
  v.decodeBetween (-(2 ^ 31)) (2 ^ 31 - 1)

def decodeUInt64 (v : Value) : Decoded Int :=
  v.decodeBetween 0 (2 ^ 64 - 1)

def decodeFloat (v : Value) : Decoded Binary64 :=
  match v.asFloat? with
  | some x => .ok x
  | none => .error (.mismatch .float v.kind)

/-- Reads a truth value; the integers 0 and 1 stand for one. -/
def decodeBool : Value → Decoded Bool
  | .bool b => .ok b
  | .json (.bool b) => .ok b
  | .int n =>
    if n = 0 then .ok false
    else if n = 1 then .ok true
    else .error (.mismatch .bool .int)
  | v => .error (.mismatch .bool v.kind)

def decodeText (v : Value) : Decoded String :=
  match v.asText? with
  | some s => .ok s
  | none => .error (.mismatch .text v.kind)

def decodeMoment (v : Value) : Decoded Moment :=
  Libraries.own.decodeMoment v

def decodeJson (v : Value) : Decoded Json :=
  Libraries.own.decodeJson v

def decodeOption {α : Type} (decode : Value → Decoded α) (v : Value) : Decoded (Option α) :=
  if v.isNull then .ok none else (decode v).map some

end Value

namespace Row

def columns (r : Row) : List String :=
  r.cells.map Prod.fst

def values (r : Row) : List Value :=
  r.cells.map Prod.snd

def get? (r : Row) (column : String) : Option Value :=
  r.cells.lookup column

def at? (r : Row) (index : Nat) : Option Value :=
  r.values[index]?

def read {α : Type} (decode : Value → Decoded α) (column : String) (r : Row) :
    Except Failure α :=
  match r.get? column with
  | none => .error (.decode column .absent)
  | some v => (decode v).mapError (.decode column)

/-- The row as a JSON object; of columns with one name the last remains. -/
def toJson (r : Row) : Json :=
  .ofMembers (r.cells.map fun (k, v) => (k, v.toJson))

end Row

end QueryChain
