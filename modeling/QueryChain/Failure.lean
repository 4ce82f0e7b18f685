import QueryChain.Filter.Lookup
import QueryChain.Text.Quoted
import QueryChain.Value.Basic

/-!
What can go wrong, by cause, and the one place where each cause is put into words. A cause named
`stated` carries words of the caller.
-/

namespace QueryChain

open Number Text

inductive IdentifierFault
  | empty
  | emptyPart (name : String)
  | character (c : Char) (name : String)
  | token (token definition : String)
  | stated (words : String)
  deriving DecidableEq

def IdentifierFault.message : IdentifierFault → String
  | .empty => "Identifier cannot be empty"
  | .emptyPart name => "Empty identifier component in " ++ quoted name
  | .character c name => "Invalid character " ++ quotedChar c ++ " in identifier " ++ quoted name
  | .token word definition =>
    "unsafe token " ++ quoted word ++ " in column definition " ++ quoted definition
  | .stated words => words

inductive FieldFault
  | empty
  | character (c : Char) (name : String)
  | stated (words : String)
  deriving DecidableEq

def FieldFault.message : FieldFault → String
  | .empty => "Field name cannot be empty"
  | .character c name =>
    "Invalid character " ++ quotedChar c ++ " in field " ++ quoted name ++
      "; only [A-Za-z0-9_] is allowed"
  | .stated words => words

inductive OperandFault
  | listForExact
  | notList (got : ValueKind)
  | stated (words : String)
  deriving DecidableEq

def OperandFault.message : OperandFault → String
  | .listForExact => "a list cannot be compared for equality; use __in"
  | .notList got => "expected a list, got " ++ got.name
  | .stated words => words

inductive BoundClause
  | limit
  | offset
  deriving DecidableEq

def BoundClause.name : BoundClause → String
  | .limit => "LIMIT"
  | .offset => "OFFSET"

inductive QueryFault
  | parameterCount (placeholders parameters : Nat)
  | bound (clause : BoundClause) (body : String)
  | noTarget (head : String)
  | manyTargets (head : String)
  | target (text : String)
  | noAssignment
  | noInsertColumn
  | noTableColumn
  | rowColumns (index : Nat) (found expected : List String)
  | stated (words : String)
  deriving DecidableEq

def QueryFault.message : QueryFault → String
  | .parameterCount placeholders parameters =>
    "base statement has " ++ placeholders.repr ++ " placeholder(s) but " ++ parameters.repr ++
      " parameter(s) were given"
  | .bound clause body =>
    "unsupported " ++ clause.name ++ " clause in base statement: " ++ quoted body
  | .noTarget head => "base statement has no FROM target: " ++ quoted head
  | .manyTargets head => "base statement has more than one FROM boundary: " ++ quoted head
  | .target text => "FROM target " ++ quoted text ++ " is not a single table"
  | .noAssignment => "update requires at least one assignment"
  | .noInsertColumn => "insert requires at least one column"
  | .noTableColumn => "create_table requires at least one column"
  | .rowColumns index found expected =>
    "row " ++ index.repr ++ " has columns " ++ quotedList found ++ ", expected " ++
      quotedList expected
  | .stated words => words

/-- What a search for exactly one result was made over. -/
inductive Searched
  | rows
  | records
  | stated (words : String)
  deriving DecidableEq

def Searched.noneMessage : Searched → String
  | .rows => "no row matches the given predicates"
  | .records => "no record matches the given predicates"
  | .stated words => words

def Searched.manyMessage : Searched → String
  | .rows => "more than one row matches the given predicates"
  | .records => "more than one record matches the given predicates"
  | .stated words => words

/-- The type that a column was read as. -/
inductive Wanted
  | int
  | float
  | bool
  | text
  | timestamp
  deriving DecidableEq

def Wanted.name : Wanted → String
  | .int => "int"
  | .float => "float"
  | .bool => "bool"
  | .text => "text"
  | .timestamp => "timestamp"

inductive DecodeFault
  | absent
  | mismatch (wanted : Wanted) (got : ValueKind)
  | range (fault : NumeralFault)
  | timestamp (text : String)
  | json
  | noRows
  | cell (index : Nat)
  | stated (words : String)
  deriving DecidableEq

def DecodeFault.message : DecodeFault → String
  | .absent => "column not present in row"
  | .mismatch wanted got => "expected " ++ wanted.name ++ ", got " ++ got.name
  | .range fault => fault.message
  | .timestamp text => "'" ++ text ++ "' is not an ISO 8601 timestamp"
  | .json => "invalid JSON"
  | .noRows => "count returned no rows"
  | .cell index => "error deserializing column " ++ index.repr
  | .stated words => words

inductive ConfigFault
  | dialect (name : String)
  | level (name : String)
  | emptyPath
  | length (name given : String)
  | flag (name given : String)
  | unclosedReference (name : String)
  | emptyReference
  | missingVariable (name : String)
  | unreadable
  | stated (words : String)
  deriving DecidableEq

def ConfigFault.message : ConfigFault → String
  | .dialect name => "unknown dialect: " ++ quoted name
  | .level name => "invalid sql_log.level: " ++ quoted name
  | .emptyPath => "database.path must not be empty"
  | .length name given => name ++ " must be a number, got " ++ quoted given
  | .flag name given => name ++ " must be a boolean, got " ++ quoted given
  | .unclosedReference name => "unterminated env var reference: $\x7b" ++ name
  | .emptyReference => "invalid env var reference: $\x7b\x7d"
  | .missingVariable name => "missing env var: " ++ name
  | .unreadable => "failed to parse settings"
  | .stated words => words

inductive PostgresFault
  | parameterCount (expected got : Nat)
  | parameter (index : Nat)
  | server
  deriving DecidableEq

def PostgresFault.message : PostgresFault → String
  | .parameterCount expected got =>
    "expected " ++ expected.repr ++ " parameters but got " ++ got.repr
  | .parameter index => "error serializing parameter " ++ index.repr
  | .server => "db error"

inductive SqliteFault
  | nestedTransaction
  | parameterCount (got needed : Nat)
  | returnedRows
  | noTable (name : String)
  deriving DecidableEq

def SqliteFault.message : SqliteFault → String
  | .nestedTransaction => "cannot start a transaction within a transaction"
  | .parameterCount got needed =>
    "Wrong number of parameters passed to query. Got " ++ got.repr ++ ", needed " ++ needed.repr
  | .returnedRows => "Execute returned results - did you mean to call query?"
  | .noTable name => "no such table: " ++ name

inductive Failure
  | invalidIdentifier (fault : IdentifierFault)
  | invalidField (fault : FieldFault)
  | invalidLookup (field : String) (lookup : Lookup) (fault : OperandFault)
  | malformedQuery (fault : QueryFault)
  | notFound (searched : Searched)
  | multipleResults (searched : Searched)
  | typeMismatch (left right : ValueKind)
  | decode (column : String) (fault : DecodeFault)
  | serialization (words : String)
  | config (fault : ConfigFault)
  | connection (words : String)
  | postgres (fault : PostgresFault)
  | sqlite (fault : SqliteFault)
  | other (words : String)
  deriving DecidableEq

namespace Failure

def message : Failure → String
  | .invalidIdentifier fault => "Invalid identifier: " ++ fault.message
  | .invalidField fault => "Invalid field name: " ++ fault.message
  | .invalidLookup field lookup fault =>
    "Invalid value for '" ++ field ++ "__" ++ lookup.name ++ "': " ++ fault.message
  | .malformedQuery fault => "Malformed query: " ++ fault.message
  | .notFound searched => "Not found: " ++ searched.noneMessage
  | .multipleResults searched => "Multiple results: " ++ searched.manyMessage
  | .typeMismatch left right =>
    "Type mismatch: cannot compare " ++ left.name ++ " with " ++ right.name
  | .decode column fault => "Decode error on column '" ++ column ++ "': " ++ fault.message
  | .serialization words => "Serialization error: " ++ words
  | .config fault => "Configuration error: " ++ fault.message
  | .connection words => "Connection error: " ++ words
  | .postgres fault => "Postgres error: " ++ fault.message
  | .sqlite fault => "SQLite error: " ++ fault.message
  | .other words => words

def isNotFound : Failure → Bool
  | .notFound _ => true
  | _ => false

def isMultipleResults : Failure → Bool
  | .multipleResults _ => true
  | _ => false

/-- Whether a name, a field or an operand was refused before anything was sent. -/
def isValidation : Failure → Bool
  | .invalidIdentifier _ | .invalidField _ | .invalidLookup .. => true
  | _ => false

end Failure

end QueryChain
