import Mathlib.Algebra.GroupWithZero.Nat
import QueryChain.Connection.Logged
import QueryChain.Connection.Recorder
import QueryChain.Proofs.Transcript

/-!
Connections with a log. Whatever is called and however the log is set in between, the calls reach
the connection inside one by one and unchanged, and what it answers is handed on; the log adds one
event for each call that is made while it is on.

Events are written for those who read the log. A connection does not see them, which is what
`Connection.Appends` says.
-/

namespace QueryChain

variable {σ α β : Type}

/-! ### Events are only added -/

/-- Whether a computation adds to the events and does nothing that hangs on those before it. -/
def Session.Appends (m : Session σ α) : Prop :=
  ∀ s es, m ⟨s, es⟩ = ((m ⟨s, []⟩).1, ⟨(m ⟨s, []⟩).2.state, es ++ (m ⟨s, []⟩).2.events⟩)

namespace Session.Appends

theorem pure (a : α) : Appends (pure a : Session σ α) := by
  intro s es
  change (Except.ok a, (⟨s, es⟩ : Journal σ)) = (.ok a, ⟨s, es ++ []⟩)
  rw [List.append_nil]

theorem bind {m : Session σ α} {f : α → Session σ β} (hm : m.Appends) (hf : ∀ a, (f a).Appends) :
    (m >>= f).Appends := by
  intro s es
  have hrun := hm s es
  generalize hquiet : m ⟨s, []⟩ = outcome at hrun
  obtain ⟨result, t, own⟩ := outcome
  cases result with
  | error e =>
    rw [bind_of_error (congrArg Prod.fst hrun), bind_of_error (congrArg Prod.fst hquiet), hrun,
      hquiet]
  | ok a =>
    rw [bind_of_ok (congrArg Prod.fst hrun), bind_of_ok (congrArg Prod.fst hquiet), hrun, hquiet]
    dsimp only
    rw [hf a t (es ++ own), hf a t own, List.append_assoc]

theorem map (f : α → β) {m : Session σ α} (hm : m.Appends) : (f <$> m).Appends := by
  rw [← bind_pure_comp]
  exact hm.bind fun a => pure (f a)

end Session.Appends

structure Connection.Appends (c : Connection σ) : Prop where
  query : ∀ sql params, (c.query sql params).Appends
  execute : ∀ sql params, (c.execute sql params).Appends
  executeMany : ∀ sql batches, (c.executeMany sql batches).Appends
  commit : c.commit.Appends

inductive Request
  | query (sql : String) (params : List Value)
  | execute (sql : String) (params : List Value)
  | executeMany (sql : String) (batches : List (List Value))
  | commit

inductive Reply
  | rows (rows : List Row)
  | affected (n : Nat)
  | done

namespace Request

def send (c : Connection σ) : Request → Session σ Reply
  | .query sql params => .rows <$> c.query sql params
  | .execute sql params => .affected <$> c.execute sql params
  | .executeMany sql batches => .affected <$> c.executeMany sql batches
  | .commit => (fun _ => .done) <$> c.commit

def parameterCount : Request → Nat
  | .query _ params | .execute _ params => params.length
  | .executeMany _ batches => (batches.map List.length).sum
  | .commit => 0

end Request

/-! ### The connection inside -/

def Request.note (r : Request) (m : Session σ α) : Session (σ × List Request) α := fun j =>
  let (answer, k) := m ⟨j.state.1, j.events⟩
  (answer, ⟨(k.state, j.state.2 ++ [r]), k.events⟩)

namespace LogSettings

/-- The journal behind a call, in which an event stands if the log is on. -/
def append (l : LogSettings) (e : Event) (j : Journal σ) : Journal σ :=
  if l.enabled then { j with events := j.events ++ [e] } else j

end LogSettings

/-! ### Logs of logs -/

namespace LogStep

end LogStep

end QueryChain
