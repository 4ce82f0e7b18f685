import QueryChain.Value.Basic

/-!
The values that SQLite stores, and how values are bound and read back as such.
-/

namespace QueryChain

open Number

inductive SqliteValue
  | null
  | integer (n : Int64)
  | real (x : Binary64)
  | text (s : String)
  | blob (bytes : List UInt8)
  deriving DecidableEq

namespace SqliteValue

def className : SqliteValue → String
  | .null => "null"
  | .integer _ => "integer"
  | .real _ => "real"
  | .text _ => "text"
  | .blob _ => "blob"

/-- What the engine makes of a bound value: it has no value for what is not a number. -/
def stored : SqliteValue → SqliteValue
  | .real x => if x.isNan then .null else .real x
  | v => v

def toValue : SqliteValue → Value
  | .null => .null
  | .integer n => .int n
  | .real x => .float x
  | .text s => .text s
  | .blob bytes => .blob bytes

end SqliteValue

namespace Libraries

variable (lib : Libraries)

/-- The form of a value without structure; lists and JSON objects have none of their own. -/
def toSqliteScalar? : Value → Option SqliteValue
  | .null => some .null
  | .bool b => some (.integer (if b then 1 else 0))
  | .int n => some (.integer n)
  | .float x => some (.real x)
  | .text s => some (.text s)
  | .blob bytes => some (.blob bytes)
  | .timestamp t => some (.text (lib.momentText t))
  | .json _ | .list _ => none

/-- The form in which a value is bound: JSON scalars like native ones, lists and JSON containers
as JSON text. -/
def toSqlite (v : Value) : SqliteValue :=
  let plain := match v with
    | .json j => Value.ofJson j
    | v => v
  (lib.toSqliteScalar? plain).getD (.text (lib.json.display (lib.toJson v)))

end Libraries

def Value.toSqlite (v : Value) : SqliteValue :=
  Libraries.own.toSqlite v

end QueryChain
