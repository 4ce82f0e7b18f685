import QueryChain.Connection.Basic

/-!
A connection that notes every call it is sent and answers from a prepared script.
-/

namespace QueryChain

inductive Call
  | query (sql : String) (params : List Value)
  | execute (sql : String) (params : List Value)
  | commit

inductive CallSort
  | query
  | execute
  | commit
  deriving DecidableEq

def CallSort.name : CallSort → String
  | .query => "query"
  | .execute => "execute"
  | .commit => "commit"

def Call.sort : Call → CallSort
  | .query .. => .query
  | .execute .. => .execute
  | .commit => .commit

/-- How a recorder answers: the affected rows of an execution, and the calls it refuses. -/
structure Script where
  affected : Nat := 0
  refuses : Option CallSort := none

structure Recording where
  calls : List Call := []
  results : List (List Row) := []

namespace Recorder

/-- Notes a call, and refuses it when the script says so. -/
def note (s : Script) (c : Call) : Session Recording Unit := fun j =>
  let j := { j with state := { j.state with calls := j.state.calls ++ [c] } }
  if s.refuses = some c.sort then (.error (.connection (c.sort.name ++ " refused")), j)
  else (.ok (), j)

/-- Takes the next result set, or none at all when they are used up. -/
def takeResult : Session Recording (List Row) := fun j =>
  match j.state.results with
  | rows :: rest => (.ok rows, { j with state := { j.state with results := rest } })
  | [] => (.ok [], j)

def connection (s : Script) : Connection Recording where
  query sql params := (note s (.query sql params)).bind fun _ => takeResult
  execute sql params := (note s (.execute sql params)).bind fun _ => Session.pure s.affected
  commit := note s .commit

end Recorder

end QueryChain
