import QueryChain.Failure

/-!
Events that operations report for a log, each with a level, a target and named fields.
-/

namespace QueryChain

open Number Text

inductive Level
  | error
  | warn
  | info
  | debug
  | trace
  deriving DecidableEq

namespace Level

def all : List Level :=
  [.error, .warn, .info, .debug, .trace]

def name : Level → String
  | .error => "ERROR"
  | .warn => "WARN"
  | .info => "INFO"
  | .debug => "DEBUG"
  | .trace => "TRACE"

def rank : Level → Nat
  | .error => 1
  | .warn => 2
  | .info => 3
  | .debug => 4
  | .trace => 5

/-- Reads a level as its name in any case or as its rank. -/
def parse? (s : String) : Option Level :=
  all.find? fun l => readUInt64? s = some (UInt64.ofNat l.rank) || sameLetters s l.name

end Level

inductive Target
  | query
  | sql
  deriving DecidableEq

def Target.name : Target → String
  | .query => "qset.query"
  | .sql => "qset.sql"

inductive Detail
  | text (s : String)
  | count (n : Nat)
  deriving DecidableEq

/-- `params` is the diagnostic text of the parameters of a statement, where they are reported. -/
structure Event where
  level : Level
  target : Target
  fields : List (String × Detail)
  params : Option String := none
  deriving DecidableEq

namespace Event

def unknownSuffix (suffix : String) : Event where
  level := .debug
  target := .query
  fields := [("message", .text "unknown lookup suffix, falling back to exact"),
    ("suffix", .text suffix)]

def statement (op dialect sql : String) : Event where
  level := .debug
  target := .query
  fields := [("op", .text op), ("dialect", .text dialect), ("sql", .text sql)]

end Event

def Key.events (k : Key) : List Event :=
  match k.unknown with
  | some suffix => [.unknownSuffix suffix]
  | none => []

end QueryChain
