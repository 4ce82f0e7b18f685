import QueryChain.Connection.Basic
import QueryChain.Postgres.Cell
import QueryChain.Postgres.Placeholder

/-!
A connection to a PostgreSQL server. A statement is prepared, and then run with parameters that
are sent in the types which the server asks for.
-/

namespace QueryChain.Postgres

structure Prepared where
  parameters : List PgType := []
  columns : List (String × PgType) := []

structure Reply where
  rows : List (List (Option Bytes)) := []
  affected : Nat := 0

structure Server (σ : Type) where
  prepare : String → Session σ Prepared
  run : Prepared → List (Option Bytes) → Session σ Reply

def encodeFrom (index : Nat) : List (PgType × Value) → Except Failure (List (Option Bytes))
  | [] => .ok []
  | (t, v) :: rest =>
    match encode t v with
    | .error _ => .error (.postgres (.parameter index))
    | .ok bytes => (encodeFrom (index + 1) rest).map (bytes :: ·)

def encodeAll (p : Prepared) (params : List Value) : Except Failure (List (Option Bytes)) :=
  if params.length = p.parameters.length then encodeFrom 0 (p.parameters.zip params)
  else .error (.postgres (.parameterCount p.parameters.length params.length))

def decodeFrom (index : Nat) :
    List ((String × PgType) × Option Bytes) → Except Failure (List (String × Value))
  | [] => .ok []
  | ((column, t), cell) :: rest =>
    let value? := match cell with
      | some bytes => decode? t bytes
      | none => some .null
    match value? with
    | none => .error (.decode column (.cell index))
    | some v => (decodeFrom (index + 1) rest).map ((column, v) :: ·)

def decodeRow (columns : List (String × PgType)) (cells : List (Option Bytes)) :
    Except Failure Row :=
  (decodeFrom 0 (columns.zip cells)).map Row.mk

namespace Server

variable {σ : Type}

def runWith (s : Server σ) (p : Prepared) (params : List Value) : Session σ Reply :=
  (Session.ofExcept (encodeAll p params)).bind (s.run p)

/-- The connection to a server. Statements take effect at once, so that a commit has nothing to
do; a batch is prepared once. -/
def connection (s : Server σ) : Connection σ where
  query sql params :=
    (s.prepare (numberPlaceholders sql)).bind fun p => (s.runWith p params).bind fun reply =>
      Session.ofExcept (reply.rows.mapM (decodeRow p.columns))
  execute sql params :=
    (s.prepare (numberPlaceholders sql)).bind fun p => (s.runWith p params).bind fun reply =>
      Session.pure reply.affected
  executeMany sql batches :=
    (s.prepare (numberPlaceholders sql)).bind fun p =>
      executeEach (fun _ params => (s.runWith p params).bind fun reply =>
        Session.pure reply.affected) sql batches
  commit := Session.pure ()

end Server

end QueryChain.Postgres
