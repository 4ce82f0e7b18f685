import QueryChain.Connection.Basic

/-!
Sessions run over a connection, and connections as the other side sees them. A peer answers each
call by whatever rule, looking at all that was exchanged with it before; the connection to it keeps
the calls with their answers.
-/

namespace QueryChain

/-! ### Sessions -/

namespace Session

variable {σ α β : Type}

theorem bind_of_ok {m : Session σ α} {j : Journal σ} {a : α} (h : (m j).1 = .ok a)
    (f : α → Session σ β) : (m >>= f) j = f a (m j).2 := by
  change m.bind f j = _
  rw [Session.bind]
  generalize m j = answer at h
  obtain ⟨result, k⟩ := answer
  obtain rfl : result = .ok a := h
  rfl

theorem bind_of_error {m : Session σ α} {j : Journal σ} {e : Failure} (h : (m j).1 = .error e)
    (f : α → Session σ β) : (m >>= f) j = (.error e, (m j).2) := by
  change m.bind f j = _
  rw [Session.bind]
  generalize m j = answer at h
  obtain ⟨result, k⟩ := answer
  obtain rfl : result = .error e := h
  rfl

theorem map_eq (f : α → β) (m : Session σ α) (j : Journal σ) :
    (f <$> m) j = ((m j).1.map f, (m j).2) := by
  change m.bind (fun a => pure (f a)) j = _
  rw [Session.bind]
  generalize m j = answer
  obtain ⟨result, k⟩ := answer
  cases result <;> rfl

instance : LawfulMonad (Session σ) := .mk' _
  (fun m => by
    funext j
    rw [map_eq]
    generalize m j = answer
    obtain ⟨result, k⟩ := answer
    cases result <;> rfl)
  (fun _ _ => rfl)
  (fun m f g => by
    funext j
    change (m.bind f).bind g j = m.bind (fun a => (f a).bind g) j
    simp only [Session.bind]
    generalize m j = answer
    obtain ⟨result, k⟩ := answer
    cases result <;> rfl)

theorem ofExcept_fst (m : Except Failure α) (j : Journal σ) : (ofExcept m j).1 = m := by
  cases m <;> rfl

theorem ofExcept_snd (m : Except Failure α) (j : Journal σ) : (ofExcept m j).2 = j := by
  cases m <;> rfl

end Session

/-! ### Peers -/

/-- A call over a connection with its answer, which may be the words of a refusal. -/
inductive Exchange
  | query (sql : String) (params : List Value) (answer : Except String (List Row))
  | execute (sql : String) (params : List Value) (answer : Except String Nat)
  | commit (answer : Except String Unit)

/-- A database by what it answers to each call behind the exchanges before it. -/
structure Peer where
  rows : List Exchange → String → List Value → Except String (List Row)
  affected : List Exchange → String → List Value → Except String Nat
  settled : List Exchange → Except String Unit

namespace Peer

def note {α : Type} (answer : Except String α) (x : Exchange) : Session (List Exchange) α := fun j =>
  (answer.mapError .connection, { j with state := j.state ++ [x] })

/-- The connection to a peer. Its state is all that was exchanged so far. -/
def connection (p : Peer) : Connection (List Exchange) where
  query sql params j :=
    let answer := p.rows j.state sql params
    note answer (.query sql params answer) j
  execute sql params j :=
    let answer := p.affected j.state sql params
    note answer (.execute sql params answer) j
  commit j :=
    let answer := p.settled j.state
    note answer (.commit answer) j

variable (p : Peer) (j : Journal (List Exchange))

theorem query_eq (sql : String) (params : List Value) {answer : Except String (List Row)}
    (h : p.rows j.state sql params = answer) :
    p.connection.query sql params j =
      (answer.mapError .connection, { j with state := j.state ++ [.query sql params answer] }) := by
  subst h
  rfl

theorem execute_eq (sql : String) (params : List Value) {answer : Except String Nat}
    (h : p.affected j.state sql params = answer) :
    p.connection.execute sql params j =
      (answer.mapError .connection, { j with state := j.state ++ [.execute sql params answer] }) := by
  subst h
  rfl

theorem commit_eq : p.connection.commit j =
    ((p.settled j.state).mapError .connection,
      { j with state := j.state ++ [.commit (p.settled j.state)] }) := rfl

end Peer

end QueryChain
