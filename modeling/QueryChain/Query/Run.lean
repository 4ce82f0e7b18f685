import QueryChain.Connection.Basic
import QueryChain.Query.Basic

/-!
Queries run over a connection. Reading operations send one statement and decode its rows; writing
operations send their statement and then commit.
-/

namespace QueryChain

/-- The events of taking apart the keys of some predicates, up to the first that is refused. -/
def Condition.events : List (String × Value) → List Event
  | [] => []
  | (key, operand) :: rest =>
    (Key.parse key).events ++
      match ofKey key operand with
      | .ok _ => events rest
      | .error _ => []

namespace Query

def event (op : String) (q : Query) (statement : Fragment) : Event :=
  { Event.statement op q.dialect.name statement.sql with
    params := some (Value.diagnoseAll statement.params) }

def report {σ : Type} (op : String) (q : Query) (statement : Fragment) : Session σ Unit :=
  Session.report (q.event op statement)

def send {σ : Type} (c : Connection σ) (op : String) (q : Query) (statement : Fragment) :
    Session σ (List Row) := do
  q.report op statement
  c.query statement.sql statement.params

def write {σ : Type} (c : Connection σ) (op : String) (q : Query) (statement : Fragment) :
    Session σ Nat := do
  q.report op statement
  let affected ← c.execute statement.sql statement.params
  c.commit
  pure affected

def execute {σ α : Type} (c : Connection σ) (decode : Row → Except Failure α) (q : Query) :
    Session σ (List α) := do
  let rows ← q.send c "execute" q.select
  Session.ofExcept (rows.mapM decode)

/-- The number of rows, counted by the database without regard to order and bounds. -/
def count {σ : Type} (c : Connection σ) (q : Query) : Session σ Int64 := do
  let rows ← q.send c "count" q.countStatement
  match rows with
  | row :: _ => Session.ofExcept (row.read Value.decodeInt64 "query_count")
  | [] => Session.fail (.decode "query_count" .noRows)

def first {σ α : Type} (c : Connection σ) (decode : Row → Except Failure α) (q : Query) :
    Session σ (Option α) := do
  let one := q.limit 1
  let rows ← one.send c "first" one.select
  match rows with
  | row :: _ => Session.ofExcept ((decode row).map some)
  | [] => pure none

def hasAny {σ α : Type} (c : Connection σ) (decode : Row → Except Failure α) (q : Query) :
    Session σ Bool := do
  let record ← q.first c decode
  pure record.isSome

/-- The only record that meets further predicates; no more than two rows are asked for. -/
def get {σ α : Type} (c : Connection σ) (decode : Row → Except Failure α)
    (pairs : List (String × Value)) (q : Query) : Session σ α := do
  Session.reportAll (Condition.events pairs)
  let narrowed ← Session.ofExcept (q.filter pairs)
  let bound := match narrowed.clauses.bounds.limit with
    | some n => min n 2
    | none => 2
  let probe := narrowed.limit bound
  let rows ← probe.send c "get" probe.select
  match rows with
  | [row] => Session.ofExcept (decode row)
  | [] => Session.fail (.notFound .rows)
  | _ => Session.fail (.multipleResults .rows)

def delete {σ : Type} (c : Connection σ) (q : Query) : Session σ Nat := do
  let statement ← Session.ofExcept q.deleteStatement
  q.write c "delete" statement

def update {σ : Type} (c : Connection σ) (pairs : List (String × Value)) (q : Query) :
    Session σ Nat := do
  let statement ← Session.ofExcept (q.updateStatement pairs)
  q.write c "update" statement

end Query

end QueryChain
