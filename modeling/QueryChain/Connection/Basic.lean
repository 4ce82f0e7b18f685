import QueryChain.Event
import QueryChain.Row

/-!
Connections. A connection answers four calls over a state of its own; a session is a computation
that makes such calls, reports events and may fail. What was done before a failure stays done.
-/

namespace QueryChain

/-- The state of a connection, and the events reported so far. -/
structure Journal (σ : Type) where
  state : σ
  events : List Event

/-- A computation over a connection with states in `σ`. -/
abbrev Session (σ α : Type) := Journal σ → Except Failure α × Journal σ

namespace Session

def pure {σ α : Type} (a : α) : Session σ α :=
  fun j => (.ok a, j)

def fail {σ α : Type} (e : Failure) : Session σ α :=
  fun j => (.error e, j)

def bind {σ α β : Type} (m : Session σ α) (f : α → Session σ β) : Session σ β :=
  fun j =>
    match m j with
    | (.ok a, j) => f a j
    | (.error e, j) => (.error e, j)

def ofExcept {σ α : Type} : Except Failure α → Session σ α
  | .ok a => pure a
  | .error e => fail e

def reportAll {σ : Type} (es : List Event) : Session σ Unit :=
  fun j => (.ok (), { j with events := j.events ++ es })

def report {σ : Type} (e : Event) : Session σ Unit :=
  reportAll [e]

instance {σ : Type} : Monad (Session σ) where
  pure := pure
  bind := bind

end Session

/-- Runs `execute` for each batch of parameters and adds up the affected rows. -/
def executeEach {σ : Type} (execute : String → List Value → Session σ Nat) (sql : String) :
    List (List Value) → Session σ Nat
  | [] => Session.pure 0
  | params :: rest =>
    (execute sql params).bind fun n => (executeEach execute sql rest).bind fun m =>
      Session.pure (n + m)

/-- A database that runs one statement at a time. -/
structure Connection (σ : Type) where
  query : String → List Value → Session σ (List Row)
  execute : String → List Value → Session σ Nat
  executeMany : String → List (List Value) → Session σ Nat := executeEach execute
  commit : Session σ Unit

end QueryChain
