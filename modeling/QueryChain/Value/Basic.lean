import QueryChain.Libraries

/-!
Values that are bound as parameters, compared in memory and read back from rows.
-/

namespace QueryChain

open Number Time

inductive Value
  | null
  | bool (b : Bool)
  | int (n : Int64)
  | float (x : Binary64)
  | text (s : String)
  | blob (bytes : List UInt8)
  | timestamp (t : Moment)
  | json (j : Json)
  | list (items : List Value)
  deriving Inhabited

inductive ValueKind
  | null
  | bool
  | int
  | float
  | text
  | blob
  | timestamp
  | json
  | list
  deriving DecidableEq

def ValueKind.name : ValueKind → String
  | .null => "null"
  | .bool => "bool"
  | .int => "int"
  | .float => "float"
  | .text => "text"
  | .blob => "blob"
  | .timestamp => "timestamp"
  | .json => "json"
  | .list => "list"

namespace Value

def kind : Value → ValueKind
  | .null => .null
  | .bool _ => .bool
  | .int _ => .int
  | .float _ => .float
  | .text _ => .text
  | .blob _ => .blob
  | .timestamp _ => .timestamp
  | .json _ => .json
  | .list _ => .list

def isNull : Value → Bool
  | .null | .json .null => true
  | _ => false

def isStructured : Value → Bool
  | .list _ => true
  | .json j => j.isContainer
  | _ => false

mutual

/-- The value of a JSON value: scalars become native, arrays become lists, objects stay. An
integer beyond the signed range becomes the nearest float. -/
def ofJson : Json → Value
  | .null => .null
  | .bool b => .bool b
  | .whole n => if n.val < 2 ^ 63 then .int (Int64.ofInt n.val) else .float (.ofInt n.val)
  | .float x => .float x.val
  | .text s => .text s
  | .array items => .list (ofJsonItems items)
  | .object members => .json (.object members)

def ofJsonItems : List Json → List Value
  | [] => []
  | j :: rest => ofJson j :: ofJsonItems rest

end

end Value

namespace Libraries

variable (lib : Libraries)

mutual

/-- The JSON form of a value. What is not a finite number is null, a blob is an array of bytes and
a timestamp is its text. -/
def toJson : Value → Json
  | .null => .null
  | .bool b => .bool b
  | .int n => .ofInt64 n
  | .float x => if h : x.isFinite = true then .float ⟨x, h⟩ else .null
  | .text s => .text s
  | .blob bytes => .array (bytes.map fun b => .ofInt64 (Int64.ofNat b.toNat))
  | .timestamp t => .text (lib.momentText t)
  | .json j => j
  | .list items => .array (toJsonItems items)

def toJsonItems : List Value → List Json
  | [] => []
  | v :: rest => toJson v :: toJsonItems rest

end

theorem toJsonItems_eq_map (items : List Value) :
    lib.toJsonItems items = items.map lib.toJson := by
  induction items with
  | nil => rfl
  | cons v rest ih => simp [toJsonItems, ih]

/-- The form in which a value is stored in a plain column: containers become JSON text. Nothing is
answered when that cannot be written. -/
def toStorage? (v : Value) : Option Value :=
  if v.isStructured then (lib.json.serialize? (lib.toJson v)).map .text else some v

end Libraries

namespace Value

def toJson (v : Value) : Json :=
  Libraries.own.toJson v

theorem toJson_list (items : List Value) :
    (Value.list items).toJson = .array (items.map toJson) :=
  congrArg Json.array (Libraries.own.toJsonItems_eq_map items)

def toStorage (v : Value) : Value :=
  (Libraries.own.toStorage? v).getD v

theorem toStorage_eq (v : Value) :
    v.toStorage = if v.isStructured then .text v.toJson.render else v := by
  rw [toStorage, Libraries.toStorage?]
  split <;> rfl

theorem ofJsonItems_eq_map (items : List Json) : ofJsonItems items = items.map ofJson := by
  induction items with
  | nil => rfl
  | cons j rest ih => simp [ofJsonItems, ih]

def asText? : Value → Option String
  | .text s | .json (.text s) => some s
  | _ => none

/-- The integer that a value is; a boolean counts as 0 or 1. -/
def asInt? : Value → Option Int64
  | .int n => some n
  | .bool b => some (if b then 1 else 0)
  | .json (.whole n) => if n.val < 2 ^ 63 then some (Int64.ofInt n.val) else none
  | _ => none

/-- The number that a value is, integers being rounded to the nearest float. -/
def asFloat? : Value → Option Binary64
  | .float x => some x
  | .int n => some (.ofInt n.toInt)
  | .json (.whole n) => some (.ofInt n.val)
  | .json (.float x) => some x.val
  | _ => none

def asList? : Value → Option (List Value)
  | .list items => some items
  | .json (.array items) => some (items.map ofJson)
  | _ => none

/-- Whether the value counts as true. Null, false, zero and whatever is empty do not. -/
def isTruthy : Value → Bool
  | .null => false
  | .bool b => b
  | .int n => n != 0
  | .float x => !x.isZero
  | .text s => !s.isEmpty
  | .blob bytes => !bytes.isEmpty
  | .timestamp _ => true
  | .list items => !items.isEmpty
  | .json .null => false
  | .json (.bool b) => b
  | .json (.whole n) => n.val != 0
  | .json (.float x) => !x.val.isZero
  | .json (.text s) => !s.isEmpty
  | .json (.array items) => !items.isEmpty
  | .json (.object members) => !members.isEmpty

def ofBinary32 (x : Binary32) : Value :=
  .float x.widen

def ofDate (d : Date) : Value :=
  .timestamp (.ofDate d)

/-- A moment of a zone that lies `offset` seconds east, brought to the zone of offset 0. -/
def ofZoned? (t : Moment) (offset : Int) : Option Value :=
  (t.addSeconds? (-offset)).map .timestamp

end Value

end QueryChain
