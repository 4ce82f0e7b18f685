import QueryChain.Connection.Logged
import QueryChain.Sql.Dialect

/-!
Settings: the dialect, where the database is, and what is logged of the statements.
-/

namespace QueryChain

structure DatabaseSettings where
  url : Option String := none
  path : String := ":memory:"
  deriving DecidableEq

/-- What is logged of the statements. The level is kept as it was given. -/
structure StatementLog where
  enabled : Bool := false
  level : String := "debug"
  maxLength : Nat := 200
  deriving DecidableEq

structure Settings where
  dialect : Dialect := .sqlite
  database : DatabaseSettings := {}
  statementLog : StatementLog := {}
  deriving DecidableEq

abbrev Variables := String → Option String

namespace Settings

def level (s : Settings) : Except Failure Level :=
  match Level.parse? s.statementLog.level with
  | some l => .ok l
  | none => .error (.config (.level s.statementLog.level))

def logSettings (s : Settings) : Except Failure LogSettings :=
  s.level.map fun level =>
    { enabled := s.statementLog.enabled, level, maxLength := some s.statementLog.maxLength }

/-- Accepts settings whose level can be read and whose path is not blank. -/
def check (s : Settings) : Except Failure Settings := do
  let _ ← s.level
  if (Text.trim s.database.path).isEmpty then .error (.config .emptyPath)
  else .ok s

/-- The events that loading reports: a dialect of a server asks for a URL. -/
def events (s : Settings) : List Event :=
  if s.dialect ≠ .sqlite ∧ s.database.url = none then
    [{ level := .debug
       target := .query
       fields := [("dialect", .text s.dialect.name),
         ("message", .text "no database.url configured")] }]
  else []

def isInMemory (s : Settings) : Bool :=
  s.database.path == ":memory:"

end Settings

end QueryChain
