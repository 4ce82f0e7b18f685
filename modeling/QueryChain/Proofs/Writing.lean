import Mathlib.Algebra.GroupWithZero.Nat
import QueryChain.Proofs.Insertion
import QueryChain.Proofs.Refusal
import QueryChain.Proofs.Transcript

/-!
Calls that write. Such a call prepares its statements before it sends any; then it executes them in
order up to the first that fails, and commits once if none does.
-/

namespace QueryChain

/-! ### Statements in a row -/

def executed (statements : List Fragment) (counts : List Nat) : List Exchange :=
  List.zipWith (fun s n => .execute s.sql s.params (.ok n)) statements counts

/-- How statements are executed one after the other: all of them with a count each, or those before
one that fails and that one itself. -/
inductive Executed (statements : List Fragment) : List Exchange → Except Failure Nat → Prop
  | all (counts : List Nat) (length_eq : counts.length = statements.length) :
    Executed statements (executed statements counts) (.ok counts.sum)
  | upTo (done : List Fragment) (s : Fragment) (rest : List Fragment) (counts : List Nat)
    (words : String) (statements_eq : statements = done ++ s :: rest)
    (length_eq : counts.length = done.length) :
    Executed statements (executed done counts ++ [.execute s.sql s.params (.error words)])
      (.error (.connection words))

/-- How statements are written: a failure among them ends the exchange, and behind statements that
were all executed comes one commit, whose answer decides. -/
inductive Written (statements : List Fragment) : List Exchange → Except Failure Nat → Prop
  | stopped {log : List Exchange} {e : Failure} (h : Executed statements log (.error e)) :
    Written statements log (.error e)
  | committed {log : List Exchange} {n : Nat} (h : Executed statements log (.ok n))
    (answer : Except String Unit) :
    Written statements (log ++ [.commit answer]) ((answer.mapError .connection).map fun _ => n)

/-- A statement that is executed before others. -/
theorem Executed.cons {statements : List Fragment} {log : List Exchange}
    {outcome : Except Failure Nat} (h : Executed statements log outcome) (s : Fragment) (n : Nat) :
    Executed (s :: statements) (.execute s.sql s.params (.ok n) :: log) (outcome.map (n + ·)) := by
  cases h with
  | all counts length_eq =>
    have h : Executed (s :: statements) _ _ := .all (n :: counts) (by simp [length_eq])
    rwa [List.sum_cons] at h
  | upTo done t rest counts words statements_eq length_eq =>
    exact .upTo (s :: done) t rest (n :: counts) words (by rw [statements_eq]; rfl)
      (by simp [length_eq])

/-- What is written fails by the connection alone. -/
theorem Written.not_refusal {statements : List Fragment} {log : List Exchange}
    {outcome : Except Failure Nat} (h : Written statements log outcome) {f : Nat → Option Nat}
    {e : Failure} (he : outcome.map f = .error e) : e.isRefusal = false := by
  cases h with
  | stopped h =>
    cases h
    cases he
    rfl
  | committed _ answer =>
    cases answer with
    | error words =>
      cases he
      rfl
    | ok _ => cases he

/-- A text that is executed with each of several batches in turn. -/
theorem executeEach_executed (p : Peer) (sql : String) (batches : List (List Value))
    (j : Journal (List Exchange)) :
    ∃ log outcome, Executed (batches.map (⟨sql, ·⟩)) log outcome ∧
      executeEach p.connection.execute sql batches j =
        (outcome, { j with state := j.state ++ log }) := by
  induction batches generalizing j with
  | nil => exact ⟨[], .ok 0, .all [] rfl, by rw [List.append_nil]; rfl⟩
  | cons params rest ih =>
    cases hanswer : p.affected j.state sql params with
    | error words =>
      have hexecute := p.execute_eq j sql params hanswer
      refine ⟨_, _, .upTo [] ⟨sql, params⟩ (rest.map (⟨sql, ·⟩)) [] words rfl rfl, ?_⟩
      rw [executeEach]
      exact (Session.bind_of_error (by rw [hexecute]; rfl) _).trans (by rw [hexecute]; rfl)
    | ok n =>
      have hexecute := p.execute_eq j sql params hanswer
      obtain ⟨log, outcome, hlog, hrest⟩ :=
        ih { j with state := j.state ++ [.execute sql params (.ok n)] }
      refine ⟨_, _, hlog.cons ⟨sql, params⟩ n, ?_⟩
      calc executeEach p.connection.execute sql (params :: rest) j
          = ((n + ·) <$> executeEach p.connection.execute sql rest)
              (p.connection.execute sql params j).2 := Session.bind_of_ok (by rw [hexecute]; rfl) _
        _ = _ := by rw [Session.map_eq, hexecute, hrest, List.append_assoc]; rfl

structure Plan where
  event : Event
  sql : String
  batches : List (List Value)

namespace Plan

def statements (x : Plan) : List Fragment :=
  x.batches.map (⟨x.sql, ·⟩)

def write {σ : Type} (c : Connection σ) (x : Plan) : Session σ Nat := do
  Session.report x.event
  let affected ← executeEach c.execute x.sql x.batches
  c.commit
  pure affected

theorem write_written (p : Peer) (x : Plan) (j : Journal (List Exchange)) :
    ∃ log outcome, Written x.statements log outcome ∧
      x.write p.connection j = (outcome, ⟨j.state ++ log, j.events ++ [x.event]⟩) := by
  let start : Journal (List Exchange) := { j with events := j.events ++ [x.event] }
  let finish (n : Nat) : Session (List Exchange) Nat := (fun _ => n) <$> p.connection.commit
  have hreport : x.write p.connection j =
      (executeEach p.connection.execute x.sql x.batches >>= finish) start := rfl
  obtain ⟨log, outcome, hlog, heach⟩ := executeEach_executed p x.sql x.batches start
  cases outcome with
  | error e =>
    refine ⟨log, .error e, .stopped hlog, ?_⟩
    rw [hreport, Session.bind_of_error (congrArg Prod.fst heach), heach]
  | ok n =>
    refine ⟨_, _, .committed hlog (p.settled (j.state ++ log)), ?_⟩
    rw [hreport, Session.bind_of_ok (congrArg Prod.fst heach), heach]
    show ((fun _ => n) <$> p.connection.commit) _ = _
    rw [Session.map_eq, Peer.commit_eq, List.append_assoc]

end Plan

/-- A single batch is executed as such. -/
theorem executeEach_singleton {σ : Type} (execute : String → List Value → Session σ Nat)
    (sql : String) (params : List Value) : executeEach execute sql [params] = execute sql params := by
  funext j
  change ((· + 0) <$> execute sql params) j = _
  rw [Session.map_eq]
  cases h : execute sql params j with
  | mk outcome k => cases outcome <;> rfl

theorem Plan.write_single {σ : Type} (c : Connection σ) (e : Event) (sql : String)
    (params : List Value) : write c ⟨e, sql, [params]⟩ = (do
      Session.report e
      let affected ← c.execute sql params
      c.commit
      pure affected) := by
  rw [write, executeEach_singleton]

/-! ### Calls -/

inductive Write
  | insert (d : Dialect) (table : String) (cells : List (String × Value))
  | insertMany (d : Dialect) (table : String) (rows : List Row)
  | create (d : Dialect) (table : String) (columns : List (String × String))
  | update (q : Query) (pairs : List (String × Value))
  | delete (q : Query)

namespace Write

/-- The call over a connection. It answers the number of affected rows, and the creation of a table
answers nothing. -/
def run {σ : Type} (c : Connection σ) : Write → Session σ (Option Nat)
  | .insert d table cells => some <$> Table.insert c d table cells
  | .insertMany d table rows => some <$> Table.insertMany c d table rows
  | .create d table columns => (fun _ => none) <$> Table.create c d table columns
  | .update q pairs => some <$> q.update c pairs
  | .delete q => some <$> q.delete c

/-- What a call answers when its statements affect so many rows. -/
def answer : Write → Nat → Option Nat
  | .create .., _ => none
  | _, n => some n

/-- The statements of a call in the order in which they are sent: one for each row of an insertion of
rows, all with the text that is prepared for the columns of the first row, and one for any other
call. -/
inductive Sends : Write → List Fragment → Prop
  | insert {d : Dialect} {table : String} {cells : List (String × Value)} {s : Fragment}
    (h : Table.insertStatement d table cells = .ok s) : Sends (.insert d table cells) [s]
  | insertMany {d : Dialect} {table : String} {rows : List Row} {sql : String}
    (h : ∀ first ∈ rows.head?, ∃ batches,
      Table.insertManyStatement d table first rows = .ok (sql, batches)) :
    Sends (.insertMany d table rows)
      (rows.map fun row => ⟨sql, row.values.map Value.toStorage⟩)
  | create {d : Dialect} {table : String} {columns : List (String × String)} {sql : String}
    (h : Table.createSql table columns = .ok sql) : Sends (.create d table columns) [⟨sql, []⟩]
  | update {q : Query} {pairs : List (String × Value)} {s : Fragment}
    (h : q.updateStatement pairs = .ok s) : Sends (.update q pairs) [s]
  | delete {q : Query} {s : Fragment} (h : q.deleteStatement = .ok s) : Sends (.delete q) [s]

theorem Sends.length_eq {d : Dialect} {table : String} {rows : List Row}
    {statements : List Fragment} (h : Sends (.insertMany d table rows) statements) :
    statements.length = rows.length := by
  cases h with
  | insertMany _ => exact List.length_map _

def plan : Write → Except Failure (Option Plan)
  | .insert d table cells => (Table.insertStatement d table cells).map fun s =>
    some ⟨.statement "insert" d.name s.sql, s.sql, [s.params]⟩
  | .insertMany _ _ [] => .ok none
  | .insertMany d table (first :: rest) =>
    (Table.insertManyStatement d table first (first :: rest)).map fun s =>
      some ⟨Table.insertManyEvent d (first :: rest).length s.1, s.1, s.2⟩
  | .create d table columns => (Table.createSql table columns).map fun sql =>
    some ⟨.statement "create_table" d.name sql, sql, [[]]⟩
  | .update q pairs => (q.updateStatement pairs).map fun s =>
    some ⟨q.event "update" s, s.sql, [s.params]⟩
  | .delete q => q.deleteStatement.map fun s =>
    some ⟨q.event "delete" s, s.sql, [s.params]⟩

def perform {σ : Type} (c : Connection σ) (w : Write) : Option Plan → Session σ (Option Nat)
  | none => pure (w.answer 0)
  | some x => w.answer <$> x.write c

/-- Most calls prepare one statement, report it, execute it and commit. -/
theorem single_eq_perform {σ : Type} (c : Connection σ) {w : Write} (hanswer : w.answer = some)
    (prepared : Except Failure Fragment) (event : Fragment → Event) :
    some <$> (Session.ofExcept prepared >>= fun s => do
      Session.report (event s)
      let affected ← c.execute s.sql s.params
      c.commit
      pure affected) =
        Session.ofExcept (prepared.map fun s => some ⟨event s, s.sql, [s.params]⟩) >>=
          w.perform c := by
  cases prepared with
  | error e => rfl
  | ok s =>
    show _ = w.answer <$> Plan.write c _
    rw [Plan.write_single, hanswer]
    rfl

/-- A call is planned to its end before anything is sent. -/
theorem run_eq_perform {σ : Type} {c : Connection σ} (heach : c.executeMany = executeEach c.execute)
    (w : Write) : w.run c = Session.ofExcept w.plan >>= w.perform c := by
  cases w with
  | insert d table cells => exact single_eq_perform c rfl _ fun s => .statement "insert" d.name s.sql
  | update q pairs =>
    exact single_eq_perform c rfl _ (q.event "update")
  | delete q => exact single_eq_perform c rfl _ (q.event "delete")
  | insertMany d table rows =>
    cases rows with
    | nil => rfl
    | cons first rest =>
      rw [run, plan, Table.insertMany, heach]
      cases Table.insertManyStatement d table first (first :: rest) with
      | error e => rfl
      | ok s => rfl
  | create d table columns =>
    rw [run, plan, Table.create]
    cases Table.createSql table columns with
    | error e => rfl
    | ok sql =>
      show _ = (fun _ => none) <$> Plan.write c _
      rw [Plan.write_single]
      simp only [bind_pure_comp, map_bind, Functor.map_map]
      rfl

theorem plan_refusing (w : Write) : Refusing w.plan := by
  cases w with
  | insert d table cells => exact (Table.insertStatement_refusing d table cells).map _
  | insertMany d table rows =>
    cases rows with
    | nil => exact .ok none
    | cons first rest => exact (Table.insertManyStatement_refusing d table first _).map _
  | create d table columns => exact (Table.createSql_refusing table columns).map _
  | update q pairs => exact (q.updateStatement_refusing pairs).map _
  | delete q => exact q.deleteStatement_refusing.map _

/-- No plan is made for an insertion of no rows alone. -/
theorem sends_of_no_plan {w : Write} (h : w.plan = .ok none) : w.Sends [] := by
  cases w with
  | insertMany d table rows =>
    cases rows with
    | nil => exact @Sends.insertMany d table [] "" nofun
    | cons first rest =>
      obtain ⟨s, -, hs⟩ := Except.map_eq_ok.mp h
      cases hs
  | insert d table cells | create d table columns | update q pairs | delete q =>
    obtain ⟨s, -, hs⟩ := Except.map_eq_ok.mp h
    cases hs

theorem prepared_of_plan {α : Type} {prepared : Except Failure α} {f : α → Plan} {x : Plan}
    (h : (prepared.map fun a => some (f a)) = .ok (some x)) : ∃ a, prepared = .ok a ∧ f a = x := by
  obtain ⟨a, ha, hx⟩ := Except.map_eq_ok.mp h
  exact ⟨a, ha, Option.some.inj hx⟩

theorem sends_of_plan {w : Write} {x : Plan} (h : w.plan = .ok (some x)) :
    x.statements ≠ [] ∧ w.Sends x.statements := by
  cases w with
  | insert d table cells =>
    obtain ⟨s, hs, rfl⟩ := prepared_of_plan h
    exact ⟨List.cons_ne_nil _ _, .insert hs⟩
  | insertMany d table rows =>
    cases rows with
    | nil => cases h
    | cons first rest =>
      obtain ⟨⟨sql, batches⟩, hs, rfl⟩ := prepared_of_plan h
      obtain ⟨-, -, -, -, -, -, hbatches⟩ := Table.insertManyStatement_ok hs
      have hvalues : (first :: rest).map (fun row => row.values.map Value.toStorage) = batches := by
        rw [← List.forall₂_eq_eq_eq, List.forall₂_map_left_iff]
        exact hbatches.imp fun _ _ h => h.2.symm
      have hstatements : (⟨Table.insertManyEvent d (first :: rest).length sql, sql, batches⟩ :
          Plan).statements =
            (first :: rest).map fun row => ⟨sql, row.values.map Value.toStorage⟩ := by
        rw [Plan.statements, ← hvalues, List.map_map]
        rfl
      rw [hstatements]
      refine ⟨List.cons_ne_nil _ _, .insertMany ?_⟩
      rintro _ hfirst
      obtain rfl := Option.some.inj hfirst
      exact ⟨batches, hs⟩
  | create d table columns =>
    obtain ⟨sql, hsql, rfl⟩ := prepared_of_plan h
    exact ⟨List.cons_ne_nil _ _, .create hsql⟩
  | update q pairs =>
    obtain ⟨s, hs, rfl⟩ := prepared_of_plan h
    exact ⟨List.cons_ne_nil _ _, .update hs⟩
  | delete q =>
    obtain ⟨s, hs, rfl⟩ := prepared_of_plan h
    exact ⟨List.cons_ne_nil _ _, .delete hs⟩

/-- What a call does over the connection to a peer in one of three ways: it is refused before
anything is sent, it has no rows to insert, or it writes the statements that it sends. -/
theorem run_cases (w : Write) (p : Peer) (j : Journal (List Exchange)) :
    (∃ e, e.isRefusal = true ∧ w.run p.connection j = (.error e, j)) ∨
      (w.Sends [] ∧ w.run p.connection j = (.ok (w.answer 0), j)) ∨
      ∃ statements log outcome, statements ≠ [] ∧ w.Sends statements ∧
        Written statements log outcome ∧ (w.run p.connection j).1 = outcome.map w.answer ∧
        (w.run p.connection j).2.state = j.state ++ log := by
  have hrefused := w.plan_refusing
  rw [run_eq_perform rfl]
  cases hplan : w.plan with
  | error e => exact .inl ⟨e, hrefused e hplan, rfl⟩
  | ok planned =>
    cases planned with
    | none => exact .inr (.inl ⟨sends_of_no_plan hplan, rfl⟩)
    | some x =>
      obtain ⟨hne, hsends⟩ := sends_of_plan hplan
      obtain ⟨log, outcome, hwritten, hwrite⟩ := x.write_written p j
      have hrun : (Session.ofExcept (.ok (some x)) >>= w.perform p.connection) j =
          (outcome.map w.answer, ⟨j.state ++ log, j.events ++ [x.event]⟩) := by
        change (w.answer <$> x.write p.connection) j = _
        rw [Session.map_eq, hwrite]
      rw [hrun]
      exact .inr (.inr ⟨_, log, outcome, hne, hsends, hwritten, rfl, rfl⟩)

/-- A call that is refused has sent nothing. Any other call executes the statements that it sends in
order up to the first that fails, whose failure it answers unchanged; if all were executed it
commits once, and answers the failure of the commit or the sum of the counts. -/
theorem run_written (w : Write) (p : Peer) (j : Journal (List Exchange)) :
    (∀ e, (w.run p.connection j).1 = .error e → e.isRefusal = true →
        (w.run p.connection j).2.state = j.state) ∧
      ((∀ e, (w.run p.connection j).1 = .error e → e.isRefusal = false) →
        ∃ statements log outcome, w.Sends statements ∧
          (w.run p.connection j).2.state = j.state ++ log ∧
          (w.run p.connection j).1 = outcome.map w.answer ∧
          (statements = [] ∧ log = [] ∧ outcome = .ok 0 ∨
            statements ≠ [] ∧ Written statements log outcome)) := by
  obtain ⟨e, hrefusal, hrun⟩ | ⟨hsends, hrun⟩ |
    ⟨statements, log, outcome, hne, hsends, hwritten, hanswer, hstate⟩ := w.run_cases p j
  · refine ⟨fun _ _ _ => by rw [hrun], fun haccepted => ?_⟩
    have hno := haccepted e (by rw [hrun])
    rw [hrefusal] at hno
    cases hno
  · refine ⟨fun _ _ _ => by rw [hrun], fun _ => ?_⟩
    refine ⟨[], [], .ok 0, hsends, ?_, ?_, .inl ⟨rfl, rfl, rfl⟩⟩
    · rw [hrun, List.append_nil]
    · rw [hrun]
      rfl
  · refine ⟨fun e he hrefusal => ?_, fun _ => ?_⟩
    · rw [hanswer] at he
      have hno := hwritten.not_refusal he
      rw [hrefusal] at hno
      cases hno
    · exact ⟨statements, log, outcome, hsends, hstate, hanswer, .inr ⟨hne, hwritten⟩⟩

/-- The second of three rows finds the disk full, and a bad column is not sent at all. -/
theorem run_written_of_full_disk :
    ∃ (w refused : Write) (p : Peer),
      w = .insertMany .sqlite "t" [⟨[("a", .int 1)]⟩, ⟨[("a", .int 2)]⟩, ⟨[("a", .int 3)]⟩] ∧
      refused = .insert .sqlite "t" [("a b", .int 1)] ∧
      (refused.run p.connection ⟨[], []⟩).1 =
        .error (.invalidIdentifier (.character ' ' "a b")) ∧
      (refused.run p.connection ⟨[], []⟩).2.state = [] ∧
      (w.run p.connection ⟨[], []⟩).1 = .error (.connection "disk full") ∧
      ∃ statements, statements.length = 3 ∧ w.Sends statements ∧
        Written statements (w.run p.connection ⟨[], []⟩).2.state
          (.error (.connection "disk full")) := by
  let p : Peer :=
    { rows := fun _ _ _ => .ok []
      affected := fun log _ _ => if log.isEmpty then .ok 1 else .error "disk full"
      settled := fun _ => .ok () }
  let w : Write :=
    .insertMany .sqlite "t" [⟨[("a", .int 1)]⟩, ⟨[("a", .int 2)]⟩, ⟨[("a", .int 3)]⟩]
  let refused : Write := .insert .sqlite "t" [("a b", .int 1)]
  have hrefused : (refused.run p.connection ⟨[], []⟩).1 =
      .error (.invalidIdentifier (.character ' ' "a b")) := by rfl
  have hfull : (w.run p.connection ⟨[], []⟩).1 = .error (.connection "disk full") := by rfl
  refine ⟨w, refused, p, rfl, rfl, hrefused, (run_written refused p _).1 _ hrefused rfl, hfull, ?_⟩
  have haccepted : ∀ e, (w.run p.connection ⟨[], []⟩).1 = .error e → e.isRefusal = false := by
    intro e he
    rw [hfull] at he
    obtain rfl := Except.error.inj he
    rfl
  obtain ⟨statements, log, outcome, hsends, hstate, hanswer, hends⟩ :=
    (run_written w p ⟨[], []⟩).2 haccepted
  rw [hfull] at hanswer
  obtain ⟨-, -, rfl⟩ | ⟨-, hwritten⟩ := hends
  · cases hanswer
  · cases outcome with
    | ok n => cases hanswer
    | error e =>
      obtain rfl := Except.error.inj hanswer
      rw [hstate]
      exact ⟨statements, hsends.length_eq, hsends, hwritten⟩

end Write

end QueryChain
