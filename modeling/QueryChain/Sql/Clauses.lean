import QueryChain.Filter.Condition
import QueryChain.Sql.Base

/-!
The clauses of a query, and the statements that are assembled from them. Text once written is never
edited; every statement is put together anew from its pieces.
-/

namespace QueryChain

open Text

inductive Direction
  | ascending
  | descending
  deriving DecidableEq

def Direction.sql : Direction → String
  | .ascending => "ASC"
  | .descending => "DESC"

/-- A field to sort by; a minus sign before it asks for the descending order. -/
structure SortKey where
  field : String
  direction : Direction
  deriving DecidableEq

def SortKey.parse (spec : String) : SortKey :=
  match spec.toList with
  | '-' :: rest => ⟨String.ofList rest, .descending⟩
  | cs => ⟨String.ofList cs, .ascending⟩

def SortKey.term (k : SortKey) : Except Failure String :=
  match Identifier.ofField k.field with
  | .error e => .error e
  | .ok i => .ok (i.sql ++ " " ++ k.direction.sql)

structure Clauses where
  head : Fragment
  conditions : List Condition := []
  groupBy : Option Fragment := none
  orderBy : List Fragment := []
  bounds : Bounds := {}

namespace Clauses

/-- Adds a clause of the base statement. An empty body adds nothing. -/
def addCut (p : Placeholder) (keyword : Keyword) (body : Fragment) (c : Clauses) :
    Except Failure Clauses :=
  let lift (clause : BoundClause) : Except Failure Clauses :=
    match liftBound? p clause body c.bounds with
    | some bounds => .ok { c with bounds }
    | none => .error (.malformedQuery (.bound clause body.sql))
  match keyword with
  | .limit => lift .limit
  | .offset => lift .offset
  | .source => .ok c
  | .condition =>
    if body.sql.isEmpty then .ok c
    else
      let condition := .given (.ofText "(" ++ body ++ .ofText ")")
      .ok { c with conditions := c.conditions ++ [condition] }
  | .groupBy => .ok (if body.sql.isEmpty then c else { c with groupBy := some body })
  | .orderBy => .ok (if body.sql.isEmpty then c else { c with orderBy := c.orderBy ++ [body] })

/-- Adds the cuts of a base statement in order, each with its share of the parameters. -/
def addCuts (p : Placeholder) : List Cut → List Value → Clauses → Except Failure Clauses
  | [], _, c => .ok c
  | cut :: rest, params, c =>
    let (body, params) := takeSection p cut.body params
    match c.addCut p cut.keyword body with
    | .ok c => addCuts p rest params c
    | .error e => .error e

/-- The clauses of a base statement, whose parameters go to its sections in text order. -/
def parse (p : Placeholder) (base : String) (params : List Value) : Except Failure Clauses :=
  let (head, cuts) := splitBase (trimStatement base.toList)
  let (head, params) := takeSection p head params
  addCuts p cuts params ⟨head, [], none, [], {}⟩

def addConditions (cs : List Condition) (c : Clauses) : Clauses :=
  { c with conditions := c.conditions ++ cs }

def addOrder (terms : List String) (c : Clauses) : Clauses :=
  { c with orderBy := c.orderBy ++ terms.map .ofText }

def setGroup (columns : List Identifier) (c : Clauses) : Clauses :=
  { c with groupBy := some (.ofText (", ".intercalate (columns.map Identifier.sql))) }

def writeConditions (d : Dialect) (c : Clauses) : Fragment :=
  .series " WHERE " " AND " (c.conditions.map (·.write d))

def writeGroup (c : Clauses) : Fragment :=
  match c.groupBy with
  | some group => .ofText " GROUP BY " ++ group
  | none => .empty

def writeOrder (c : Clauses) : Fragment :=
  .series " ORDER BY " ", " c.orderBy

def writeFiltered (d : Dialect) (c : Clauses) : Fragment :=
  c.head ++ c.writeConditions d ++ c.writeGroup

def select (d : Dialect) (c : Clauses) : Fragment :=
  c.writeFiltered d ++ c.writeOrder ++ d.bounds c.bounds (!c.orderBy.isEmpty)

def count (d : Dialect) (c : Clauses) : Fragment :=
  .ofText "SELECT COUNT(*) AS query_count FROM (" ++ c.writeFiltered d ++ .ofText ") AS t"

/-- Whether a text is one identifier between double quotes. -/
def isQuotedPart (cs : List Char) : Bool :=
  match cs with
  | '"' :: rest =>
    match rest.reverse with
    | '"' :: inner => !inner.isEmpty && inner.all isNameChar
    | _ => false
  | _ => false

/-- The table that a text after FROM names: one name, or a name with all its parts quoted. -/
def readTarget (cs : List Char) : Except Failure String :=
  let text := String.ofList (trimChars cs)
  match QualifiedName.parse text with
  | .ok name => .ok name.sql
  | .error _ =>
    if (text.toList.splitOn '.').all isQuotedPart then .ok text
    else .error (.malformedQuery (.target text))

/-- The table of the only FROM at the top level of the head. -/
def target (c : Clauses) : Except Failure String :=
  let head := c.head.sql.toList
  match (Mark.scan head).filter (·.keyword == .source) with
  | [m] => readTarget (head.drop m.stop)
  | [] => .error (.malformedQuery (.noTarget c.head.sql))
  | _ => .error (.malformedQuery (.manyTargets c.head.sql))

def delete (d : Dialect) (c : Clauses) : Except Failure Fragment :=
  match c.target with
  | .error e => .error e
  | .ok table => .ok (.ofText ("DELETE FROM " ++ table) ++ c.writeConditions d)

def writeAssignment (d : Dialect) (column : Identifier) (v : Value) : Fragment :=
  .ofText (column.sql ++ " = ") ++ d.placeholder.bind v.toStorage

def update (d : Dialect) (assignments : List (Identifier × Value)) (c : Clauses) :
    Except Failure Fragment :=
  match c.target with
  | .error e => .error e
  | .ok table =>
    if assignments.isEmpty then .error (.malformedQuery .noAssignment)
    else
      let sets := assignments.map fun (column, v) => writeAssignment d column v
      .ok (.ofText ("UPDATE " ++ table) ++ .series " SET " ", " sets ++ c.writeConditions d)

end Clauses

end QueryChain
