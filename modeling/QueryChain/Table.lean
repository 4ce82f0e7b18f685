import QueryChain.Connection.Basic
import QueryChain.Sql.ColumnDefinition
import QueryChain.Sql.Dialect

/-!
Writing to tables: insertion of rows and creation of tables. Names and definitions are checked and
values put into their stored form before anything is sent.
-/

namespace QueryChain

open Text

namespace Table

def insertSql (d : Dialect) (table : QualifiedName) (columns : List QualifiedName) : String :=
  "INSERT INTO " ++ table.sql ++ " (" ++ ", ".intercalate (columns.map QualifiedName.sql) ++
    ") VALUES (" ++ ", ".intercalate (columns.map fun _ => d.placeholder.token) ++ ")"

def insertStatement (d : Dialect) (table : String) (cells : List (String × Value)) :
    Except Failure Fragment := do
  let table ← QualifiedName.parse table
  let columns ← cells.mapM fun (k, _) => QualifiedName.parse k
  if columns.isEmpty then .error (.malformedQuery .noInsertColumn)
  else .ok ⟨insertSql d table columns, cells.map fun (_, v) => v.toStorage⟩

def insert {σ : Type} (c : Connection σ) (d : Dialect) (table : String)
    (cells : List (String × Value)) : Session σ Nat := do
  let statement ← Session.ofExcept (insertStatement d table cells)
  Session.report (.statement "insert" d.name statement.sql)
  let affected ← c.execute statement.sql statement.params
  c.commit
  pure affected

/-- The stored values of rows that must all have the expected columns; `index` is that of the
first one. -/
def batches (expected : List String) (index : Nat) : List Row → Except Failure (List (List Value))
  | [] => .ok []
  | row :: rest =>
    if row.columns ≠ expected then
      .error (.malformedQuery (.rowColumns index row.columns expected))
    else (batches expected (index + 1) rest).map (row.values.map Value.toStorage :: ·)

/-- The insertion of rows with the columns of the first one, and a batch of values for each. -/
def insertManyStatement (d : Dialect) (table : String) (first : Row) (rows : List Row) :
    Except Failure (String × List (List Value)) := do
  let table ← QualifiedName.parse table
  let columns ← first.columns.mapM QualifiedName.parse
  if columns.isEmpty then .error (.malformedQuery .noInsertColumn)
  else (batches first.columns 0 rows).map (insertSql d table columns, ·)

def insertManyEvent (d : Dialect) (rows : Nat) (sql : String) : Event where
  level := .debug
  target := .query
  fields := [("op", .text "insert_many"), ("dialect", .text d.name), ("rows", .count rows),
    ("sql", .text sql)]

/-- Inserts rows with one statement, commits and answers the number of affected rows. Without
rows nothing is sent. -/
def insertMany {σ : Type} (c : Connection σ) (d : Dialect) (table : String) (rows : List Row) :
    Session σ Nat :=
  match rows with
  | [] => pure 0
  | first :: _ => do
    let (sql, batches) ← Session.ofExcept (insertManyStatement d table first rows)
    Session.report (insertManyEvent d rows.length sql)
    let affected ← c.executeMany sql batches
    c.commit
    pure affected

def columnLine (column : String × String) : Except Failure String := do
  let name ← QualifiedName.parse column.1
  ColumnDefinition.check column.2
  .ok (name.sql ++ " " ++ trim column.2)

def createSql (table : String) (columns : List (String × String)) : Except Failure String := do
  let table ← QualifiedName.parse table
  if columns.isEmpty then .error (.malformedQuery .noTableColumn)
  else
    let lines ← columns.mapM columnLine
    .ok ("CREATE TABLE IF NOT EXISTS " ++ table.sql ++ " (" ++ ", ".intercalate lines ++ ")")

def create {σ : Type} (c : Connection σ) (d : Dialect) (table : String)
    (columns : List (String × String)) : Session σ Unit := do
  let sql ← Session.ofExcept (createSql table columns)
  Session.report (.statement "create_table" d.name sql)
  let _ ← c.execute sql []
  c.commit

end Table

end QueryChain
