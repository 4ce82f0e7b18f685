import QueryChain.Failure
import QueryChain.Sql.Fragment
import QueryChain.Text.Blank

/-!
The dialects of SQL, and what is spelled differently in them: placeholders, pattern predicates and
the clauses that bound the rows of a result.
-/

namespace QueryChain

open Text

inductive Dialect
  | tsql
  | postgres
  | sqlite
  deriving DecidableEq

structure Bounds where
  limit : Option Int64 := none
  offset : Option Int64 := none
  deriving DecidableEq

def Bounds.isUnbounded (b : Bounds) : Bool :=
  b.limit.isNone && b.offset.isNone

namespace Dialect

def name : Dialect → String
  | .tsql => "tsql"
  | .postgres => "postgres"
  | .sqlite => "sqlite"

def ofName? : String → Option Dialect
  | "tsql" | "mssql" | "sqlserver" | "transact-sql" => some .tsql
  | "postgres" | "postgresql" | "pg" => some .postgres
  | "sqlite" | "sqlite3" => some .sqlite
  | _ => none

/-- Reads the name of a dialect; blanks around it and the case of its ASCII letters are aside. -/
def parse (s : String) : Except Failure Dialect :=
  let plain := String.ofList ((trimChars s.toList).map Char.toLower)
  match ofName? plain with
  | some d => .ok d
  | none => .error (.config (.dialect plain))

def placeholder : Dialect → Placeholder
  | .tsql | .sqlite => .question
  | .postgres => .percent

/-- The clause that makes the backslash escape wildcards, where it does not do so by itself. -/
def likeEscape : Dialect → String
  | .tsql | .sqlite => " ESCAPE '\\'"
  | .postgres => ""

def like (d : Dialect) (column : String) : String :=
  column ++ " LIKE " ++ d.placeholder.token ++ d.likeEscape

def ilike (d : Dialect) (column : String) : String :=
  match d with
  | .postgres => column ++ " ILIKE " ++ d.placeholder.token
  | .tsql | .sqlite =>
    "UPPER(" ++ column ++ ") LIKE UPPER(" ++ d.placeholder.token ++ ")" ++ d.likeEscape

def bound (d : Dialect) (keyword : String) (n : Int64) : Fragment :=
  .ofText keyword ++ d.placeholder.bind (.int n)

def bound? (d : Dialect) (keyword : String) : Option Int64 → Fragment
  | some n => d.bound keyword n
  | none => .empty

/-- The clauses that bound the result. T-SQL bounds only ordered rows, and SQLite allows an offset
only behind a limit, of which -1 is none. -/
def bounds (d : Dialect) (b : Bounds) (ordered : Bool) : Fragment :=
  match d with
  | .tsql =>
    if b.isUnbounded then .empty
    else
      let order := if ordered then "" else " ORDER BY (SELECT NULL)"
      let offset := match b.offset with
        | some n => d.bound " OFFSET " n ++ .ofText " ROWS"
        | none => .ofText " OFFSET 0 ROWS"
      let fetch := match b.limit with
        | some n => d.bound " FETCH NEXT " n ++ .ofText " ROWS ONLY"
        | none => .empty
      .ofText order ++ offset ++ fetch
  | .postgres => d.bound? " LIMIT " b.limit ++ d.bound? " OFFSET " b.offset
  | .sqlite =>
    match b.limit, b.offset with
    | none, some n => d.bound " LIMIT -1 OFFSET " n
    | limit, offset => d.bound? " LIMIT " limit ++ d.bound? " OFFSET " offset

end Dialect

end QueryChain
