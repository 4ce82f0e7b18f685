import QueryChain.Postgres.Client

/-!
A server that notes what it is sent and answers from a prepared script.
-/

namespace QueryChain.Postgres

inductive Message
  | parse
  | bind
  deriving DecidableEq

structure Rehearsal where
  prepared : Prepared := {}
  reply : Reply := {}
  refuses : Option Message := none

structure Received where
  sql : Option String := none
  params : List (List (Option Bytes)) := []

namespace Rehearsal

def answer {α : Type} (r : Rehearsal) (m : Message) (a : α) : Session Received α :=
  if r.refuses = some m then Session.fail (.postgres .server) else Session.pure a

def server (r : Rehearsal) : Server Received where
  prepare sql j := r.answer .parse r.prepared { j with state := { sql := some sql } }
  run _ params j :=
    r.answer .bind r.reply
      { j with state := { j.state with params := j.state.params ++ [params] } }

end Rehearsal

end QueryChain.Postgres
