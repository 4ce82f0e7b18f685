import QueryChain.Sql.Clauses

/-!
Queries and the calls that are chained on them. A call leaves its query as it is and answers a new
one, or the failure of its first argument that is refused.
-/

namespace QueryChain

/-- The 64-bit integer nearest to `n`. -/
def saturate (n : Int) : Int64 :=
  Int64.ofInt (max (-(2 ^ 63)) (min (2 ^ 63 - 1) n))

structure Query where
  dialect : Dialect
  clauses : Clauses

namespace Bounds

def setLimit (n : Int64) (b : Bounds) : Bounds :=
  { b with limit := some n }

def setOffset (n : Int64) (b : Bounds) : Bounds :=
  { b with offset := some n }

/-- The rows `start` up to `stop` of the window that the bounds leave. -/
def slice (start stop : Int64) (b : Bounds) : Bounds :=
  let start := max start 0
  let length := max (saturate (stop.toInt - start.toInt)) 0
  let base := b.offset.getD 0
  let room := match b.limit with
    | some limit => min length (max (saturate (limit.toInt - start.toInt)) 0)
    | none => length
  ⟨some room, some (saturate (base.toInt + start.toInt))⟩

/-- The page with the given number, counted from 1, of pages of `size` rows. -/
def paginate (page size : Int64) (b : Bounds) : Bounds :=
  let before := max (saturate (page.toInt - 1)) 0
  (b.setOffset (saturate (before.toInt * size.toInt))).setLimit size

end Bounds

namespace Query

def ofBase (d : Dialect) (base : String) : Except Failure Query :=
  (Clauses.parse d.placeholder base []).map (⟨d, ·⟩)

def ofBaseWith (d : Dialect) (base : String) (params : List Value) : Except Failure Query :=
  let found := d.placeholder.count base
  if found ≠ params.length then
    .error (.malformedQuery (.parameterCount found params.length))
  else (Clauses.parse d.placeholder base params).map (⟨d, ·⟩)

def ofTable (d : Dialect) (table : String) : Except Failure Query :=
  match QualifiedName.parse table with
  | .error e => .error e
  | .ok name => ofBase d ("SELECT * FROM " ++ name.sql)

def mapClauses (f : Clauses → Clauses) (q : Query) : Query :=
  { q with clauses := f q.clauses }

def mapBounds (f : Bounds → Bounds) (q : Query) : Query :=
  q.mapClauses fun c => { c with bounds := f c.bounds }

def filter (pairs : List (String × Value)) (q : Query) : Except Failure Query :=
  (Condition.ofPairs pairs).map fun cs => q.mapClauses (·.addConditions cs)

def exclude (pairs : List (String × Value)) (q : Query) : Except Failure Query :=
  (Condition.ofPairs pairs).map fun cs => q.mapClauses (·.addConditions (cs.map .not))

/-- Keeps the rows whose field contains the needle, whatever the case. An empty field or needle
changes nothing. -/
def search (field needle : String) (q : Query) : Except Failure Query :=
  if field.isEmpty || needle.isEmpty then .ok q
  else (Condition.search field needle).map fun c => q.mapClauses (·.addConditions [c])

def order (specs : List String) (q : Query) : Except Failure Query :=
  (specs.mapM fun s => (SortKey.parse s).term).map fun terms => q.mapClauses (·.addOrder terms)

/-- Groups by the given fields instead of any earlier ones; no field changes nothing. -/
def groupBy (fields : List String) (q : Query) : Except Failure Query :=
  (fields.mapM Identifier.ofField).map fun columns =>
    if columns.isEmpty then q else q.mapClauses (·.setGroup columns)

def limit (n : Int64) (q : Query) : Query :=
  q.mapBounds (·.setLimit n)

def offset (n : Int64) (q : Query) : Query :=
  q.mapBounds (·.setOffset n)

def slice (start stop : Int64) (q : Query) : Query :=
  q.mapBounds (·.slice start stop)

def paginate (page size : Int64) (q : Query) : Query :=
  q.mapBounds (·.paginate page size)

def select (q : Query) : Fragment :=
  q.clauses.select q.dialect

def countStatement (q : Query) : Fragment :=
  q.clauses.count q.dialect

def deleteStatement (q : Query) : Except Failure Fragment :=
  q.clauses.delete q.dialect

def updateStatement (pairs : List (String × Value)) (q : Query) : Except Failure Fragment :=
  match pairs.mapM fun (k, v) => (Identifier.ofField k).map (·, v) with
  | .error e => .error e
  | .ok assignments => q.clauses.update q.dialect assignments

def diagnose (q : Query) : String :=
  let statement := q.select
  "Query \x7b dialect: " ++ Text.quoted q.dialect.name ++ ", sql: " ++ Text.quoted statement.sql ++
    ", params: " ++ Value.diagnoseAll statement.params ++ " \x7d"

end Query

end QueryChain
