import QueryChain.Connection.Basic

/-!
A connection with a log: every call is passed on unchanged and then reported as one event.
-/

namespace QueryChain

structure LogSettings where
  enabled : Bool := true
  level : Level := .debug
  maxLength : Option Nat := some 200
  deriving DecidableEq

inductive LoggedCall
  | query
  | execute
  | executeMany
  | commit
  deriving DecidableEq

def LoggedCall.name : LoggedCall → String
  | .query => "Query"
  | .execute => "Execute"
  | .executeMany => "ExecuteMany"
  | .commit => "Commit"

def byteLength : List Char → Nat
  | [] => 0
  | c :: rest => c.utf8Size + byteLength rest

/-- The longest start of a text that takes at most `limit` bytes. -/
def takeBytes : Nat → List Char → List Char
  | _, [] => []
  | limit, c :: rest => if c.utf8Size ≤ limit then c :: takeBytes (limit - c.utf8Size) rest else []

inductive LogChange
  | enable
  | disable
  | level (level : Level)
  | maxLength (n : Nat)
  | noMaxLength
  deriving DecidableEq

namespace LogSettings

def change (l : LogSettings) : LogChange → LogSettings
  | .enable => { l with enabled := true }
  | .disable => { l with enabled := false }
  | .level level => { l with level }
  | .maxLength n => { l with maxLength := some n }
  | .noMaxLength => { l with maxLength := none }

/-- The text of a statement in the log; what does not fit is replaced by three points. -/
def shorten (l : LogSettings) (sql : String) : String :=
  match l.maxLength with
  | some limit =>
    if limit < byteLength sql.toList then String.ofList (takeBytes limit sql.toList) ++ "..."
    else sql
  | none => sql

/-- The event of a call; `rows` is what it answered, or nothing when it failed. -/
def event (l : LogSettings) (call : LoggedCall) (sql : String) (parameters : Nat)
    (rows : Option Nat) : Event where
  level := l.level
  target := .sql
  fields :=
    [("call", .text call.name), ("param_count", .count parameters),
      ("sql", .text (l.shorten sql))] ++
    match rows with
    | some n => [("rows", .count n)]
    | none => [("message", .text "statement failed")]

/-- Runs a call and reports it, whatever its outcome. -/
def around {σ α : Type} (l : LogSettings) (call : LoggedCall) (sql : String) (parameters : Nat)
    (rows : α → Nat) (run : Session σ α) : Session σ α := fun j =>
  let (result, j) := run j
  let count := match result with
    | .ok a => some (rows a)
    | .error _ => none
  (result, if l.enabled then { j with events := j.events ++ [l.event call sql parameters count] }
    else j)

def connection {σ : Type} (l : LogSettings) (c : Connection σ) : Connection σ where
  query sql params := l.around .query sql params.length List.length (c.query sql params)
  execute sql params := l.around .execute sql params.length id (c.execute sql params)
  executeMany sql batches :=
    l.around .executeMany sql batches.flatten.length id (c.executeMany sql batches)
  commit := l.around .commit "COMMIT" 0 (fun _ => 0) c.commit

end LogSettings

end QueryChain
