/-!
The types of PostgreSQL columns and parameters, as far as they differ in how values are sent.
-/

namespace QueryChain

inductive PgType
  | bool
  | int2
  | int4
  | int8
  | oid
  | float4
  | float8
  | numeric
  | text
  | varchar
  | bpchar
  | name
  | unknown
  | bytea
  | uuid
  | time
  | date
  | timestamp
  | timestamptz
  | json
  | jsonb
  | inet
  | array (name : String) (element : PgType)
  | enum (name : String)
  | domain (name : String) (base : PgType)
  | other (name : String)
  deriving DecidableEq

namespace PgType

def typeName : PgType → String
  | .bool => "bool"
  | .int2 => "int2"
  | .int4 => "int4"
  | .int8 => "int8"
  | .oid => "oid"
  | .float4 => "float4"
  | .float8 => "float8"
  | .numeric => "numeric"
  | .text => "text"
  | .varchar => "varchar"
  | .bpchar => "bpchar"
  | .name => "name"
  | .unknown => "unknown"
  | .bytea => "bytea"
  | .uuid => "uuid"
  | .time => "time"
  | .date => "date"
  | .timestamp => "timestamp"
  | .timestamptz => "timestamptz"
  | .json => "json"
  | .jsonb => "jsonb"
  | .inet => "inet"
  | .array s _ | .enum s | .domain s _ | .other s => s

def scalars : List PgType :=
  [.bool, .int2, .int4, .int8, .oid, .float4, .float8, .numeric, .text, .varchar, .bpchar, .name,
    .unknown, .bytea, .uuid, .time, .date, .timestamp, .timestamptz, .json, .jsonb, .inet]

def scalarOfName (s : String) : PgType :=
  (scalars.find? fun t => t.typeName == s).getD (.other s)

/-- The built-in type with the given name; the name of an array type begins with an underscore. -/
def ofName (s : String) : PgType :=
  match s.toList with
  | '_' :: element => .array s (scalarOfName (String.ofList element))
  | _ =>
    if s = "int2vector" then .array s .int2
    else if s = "oidvector" then .array s .oid
    else scalarOfName s

end PgType

end QueryChain
