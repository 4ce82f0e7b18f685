import QueryChain.Failure

/-!
What SQLite asks of a statement before it runs: a table that exists, one parameter for each
placeholder, and, where no rows are wanted, no columns.
-/

namespace QueryChain

structure SqliteStatement where
  table : Option String := none
  placeholders : Nat := 0
  columns : Nat := 0
  deriving DecidableEq

namespace SqliteStatement

def prepare (tables : List String) (s : SqliteStatement) : Except Failure Unit :=
  match s.table with
  | some name => if name ∈ tables then .ok () else .error (.sqlite (.noTable name))
  | none => .ok ()

def bind (s : SqliteStatement) (params : List Value) : Except Failure Unit :=
  if params.length = s.placeholders then .ok ()
  else .error (.sqlite (.parameterCount params.length s.placeholders))

def query (tables : List String) (s : SqliteStatement) (params : List Value) :
    Except Failure Unit := do
  s.prepare tables
  s.bind params

def execute (tables : List String) (s : SqliteStatement) (params : List Value) :
    Except Failure Unit := do
  s.query tables params
  if s.columns ≠ 0 then .error (.sqlite .returnedRows) else .ok ()

end SqliteStatement

end QueryChain
