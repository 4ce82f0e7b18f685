import QueryChain.Row
import QueryChain.Sqlite.Basic

/-!
A table of values under row numbers, with transactions. Row numbers grow with the table; the last
one that was given is remembered even when the row is taken back.
-/

namespace QueryChain

/-- The rows by number, the rows to which a transaction goes back, and the last number given. -/
structure SqliteStore where
  rows : List (Int × SqliteValue) := []
  saved : Option (List (Int × SqliteValue)) := none
  lastId : Int := 0
  deriving DecidableEq

namespace SqliteStore

def nextId (s : SqliteStore) : Int :=
  (s.rows.map Prod.fst).foldl max 0 + 1

def insert (v : Value) (s : SqliteStore) : SqliteStore :=
  { s with rows := s.rows ++ [(s.nextId, v.toSqlite.stored)], lastId := s.nextId }

def insertAll (vs : List Value) (s : SqliteStore) : SqliteStore :=
  vs.foldl (fun s v => s.insert v) s

def delete (id : Int) (s : SqliteStore) : Nat × SqliteStore :=
  ((s.rows.filter (·.1 == id)).length, { s with rows := s.rows.filter (·.1 != id) })

/-- Begins a transaction, of which there is at most one. -/
def begin (s : SqliteStore) : Except Failure SqliteStore :=
  match s.saved with
  | some _ => .error (.sqlite .nestedTransaction)
  | none => .ok { s with saved := some s.rows }

/-- Ends the transaction, if there is one, and keeps its rows. -/
def commit (s : SqliteStore) : SqliteStore :=
  { s with saved := none }

/-- Ends the transaction, if there is one, and goes back to the rows before it. -/
def rollback (s : SqliteStore) : SqliteStore :=
  { s with rows := s.saved.getD s.rows, saved := none }

def all (s : SqliteStore) : List Row :=
  s.rows.map fun (id, v) => ⟨[("id", .int (Int64.ofInt id)), ("v", v.toValue)]⟩

end SqliteStore

def SqliteValue.shownRow (v : SqliteValue) : Row :=
  ⟨[("v", v.stored.toValue), ("t", .text v.stored.className)]⟩

end QueryChain
