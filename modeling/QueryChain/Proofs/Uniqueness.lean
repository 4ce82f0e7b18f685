import QueryChain.Proofs.Paging

/-!
Searches for the only row. Two rows of a window tell whether it holds none, one or more, so a single
statement with a limit of at most two decides what all rows of the window would.
-/

namespace QueryChain

open Fragment (ofText)

def soleOf {α β : Type} (searched : Searched) (decode : α → Except Failure β) :
    List α → Except Failure β
  | [] => .error (.notFound searched)
  | [found] => decode found
  | _ => .error (.multipleResults searched)

theorem soleOf_take_two {α β : Type} (searched : Searched) (decode : α → Except Failure β)
    (found : List α) : soleOf searched decode (found.take 2) = soleOf searched decode found := by
  match found with
  | [] | [_] | _ :: _ :: _ => rfl

/-- The limit of a search for the only row within bounds. -/
def Bounds.probe (b : Bounds) : Int64 :=
  match b.limit with
  | some n => min n 2
  | none => 2

namespace Bounds

variable {b : Bounds}

theorem toInt_probe {n : Int64} (h : b.limit = some n) : b.probe.toInt = min n.toInt 2 := by
  rw [probe, h]
  exact Int64.toInt_min n 2

theorem probe_nonneg (hb : b.NonNegative) : 0 ≤ b.probe.toInt := by
  obtain ⟨limit, offset⟩ := b
  cases limit with
  | none => exact (by decide : 0 ≤ (2 : Int64).toInt)
  | some n =>
    have hn : 0 ≤ n.toInt := hb.limit n rfl
    rw [toInt_probe rfl]
    omega

theorem probe_le_two (b : Bounds) : b.probe.toInt ≤ 2 := by
  obtain ⟨limit, offset⟩ := b
  cases limit with
  | none => exact (by decide : (2 : Int64).toInt ≤ 2)
  | some n =>
    rw [toInt_probe rfl]
    omega

/-- The probe leaves the first two rows of a window. -/
theorem cut_probe (hb : b.NonNegative) {α : Type} (rows : List α) :
    (b.setLimit b.probe).cut rows = (b.cut rows).take 2 := by
  obtain ⟨limit, offset⟩ := b
  cases limit with
  | none => rfl
  | some n =>
    have hn : 0 ≤ n.toInt := hb.limit n rfl
    have hprobe : (min n 2).toInt.toNat = min 2 n.toInt.toNat := by
      have hmin : (min n 2).toInt = min n.toInt 2 := toInt_probe (b := ⟨some n, offset⟩) rfl
      omega
    show (rows.drop _).take (min n 2).toInt.toNat = ((rows.drop _).take n.toInt.toNat).take 2
    rw [hprobe, List.take_take]
    rfl

end Bounds

/-! ### The statement -/

/-- Whether a statement is the SELECT of a query under the given bounds. -/
def Query.Bears (q : Query) (statement : Fragment) (b : Bounds) : Prop :=
  ∃ clause, q.dialect.paging? clause = some b ∧
    (statement = q.unbounded ++ clause ∨ statement = q.unbounded ++ (ofText anyOrder ++ clause))

theorem Query.select_bears (q : Query) (hb : q.clauses.bounds.NonNegative) :
    ∃ b, q.Bears q.select b ∧ b.limit = q.clauses.bounds.limit := by
  obtain ⟨clause, b, hclause, -, hlimit, -, hbounds⟩ :=
    q.dialect.bounds_paging hb (!q.clauses.orderBy.isEmpty)
  refine ⟨b, ⟨clause, hclause, ?_⟩, hlimit⟩
  rw [q.select_eq_unbounded]
  obtain hplain | ⟨-, -, hany⟩ := hbounds
  · exact .inl (by rw [hplain])
  · exact .inr (by rw [hany])

/-- A statement that a peer answers is kept with its rows. -/
theorem Peer.send_state (p : Peer) (q : Query) (op : String) (statement : Fragment)
    {rows : List Row} {j : Journal (List Exchange)}
    (h : (q.send p.connection op statement j).1 = .ok rows) :
    (q.send p.connection op statement j).2.state =
      j.state ++ [.query statement.sql statement.params (.ok rows)] := by
  have hanswer : p.rows j.state statement.sql statement.params = .ok rows := Except.mapError_ok h
  exact congrArg (·.2.state) (p.query_eq { j with events := _ } _ _ hanswer)

/-- A peer that answers each query as a connection without a state does, and nothing else. -/
def Peer.reading (c : Connection Unit) : Peer where
  rows _ sql params := (c.query sql params ⟨(), []⟩).1.mapError Failure.message
  affected _ _ _ := .error "read only"
  settled _ := .ok ()

theorem Connection.Serves.reading {c : Connection Unit} {q : Query} {rows : List Row}
    (h : c.Serves q rows) : (Peer.reading c).connection.Serves q rows := by
  have hquery {sql : String} {params : List Value} {found : List Row}
      (hfound : (c.query sql params ⟨(), []⟩).1 = .ok found) (j : Journal (List Exchange)) :
      ((Peer.reading c).connection.query sql params j).1 = .ok found := by
    have hrows : (Peer.reading c).rows j.state sql params = .ok found :=
      congrArg (Except.mapError Failure.message) hfound
    rw [Peer.query_eq _ _ _ _ hrows]
    rfl
  constructor
  · intro clause b hclause hb
    exact hquery (h.bounded clause b hclause hb _)
  · intro hdialect horder clause b hclause hb
    exact hquery (h.reordered hdialect horder clause b hclause hb _)

/-! ### The search -/

theorem Selection.get_eq {α : Type} [Record α] {s t : Selection α}
    {pairs : List (String × Value)} (h : s.filter pairs = .ok t) :
    s.get pairs = soleOf .records .ok t.list := by
  rw [get, h]
  dsimp only
  generalize t.list = found
  match found with
  | [] | [_] | _ :: _ :: _ => rfl

namespace Query

variable {σ α : Type} {c : Connection σ} {q narrowed : Query} {pairs : List (String × Value)}

theorem filter_bounds (h : q.filter pairs = .ok narrowed) :
    narrowed.clauses.bounds = q.clauses.bounds := by
  obtain ⟨conditions, -, rfl⟩ := Except.map_eq_ok.mp h
  rfl

def probed (q : Query) : Query :=
  q.limit q.clauses.bounds.probe

/-- A search reports the predicates, sends one SELECT and decodes the only row. -/
theorem get_eq (h : q.filter pairs = .ok narrowed) (decode : Row → Except Failure α)
    (j : Journal σ) :
    q.get c decode pairs j =
      (narrowed.probed.send c "get" narrowed.probed.select >>= fun rows =>
        Session.ofExcept (soleOf .rows decode rows))
        { j with events := j.events ++ Condition.events pairs } := by
  show (Session.ofExcept (q.filter pairs) >>= _) _ = _
  rw [h]
  show (narrowed.probed.send c "get" narrowed.probed.select).bind _ _ = _
  refine congrFun (congrArg (Session.bind _) (funext fun rows => ?_)) _
  rcases rows with _ | ⟨row, _ | ⟨_, _⟩⟩ <;> rfl

/-- Over a database that honours the bounds of its statements, a search sends one SELECT with a
limit of at most two and finds what all rows within the bounds of the query decide: none, the only
one as it is decoded, or several. Records in memory are told apart in the same way. -/
theorem get_eq_sole {p : Peer} {rows : List Row} (hfilter : q.filter pairs = .ok narrowed)
    (hserves : p.connection.Serves narrowed rows) (hb : q.clauses.bounds.NonNegative)
    (decode : Row → Except Failure α) (j : Journal (List Exchange)) :
    let given := narrowed.clauses.bounds.cut rows
    (∀ k, (narrowed.execute p.connection .ok k).1 = .ok given) ∧
      (q.get p.connection decode pairs j).1 = soleOf .rows decode given ∧
      (∃ statement b n, narrowed.Bears statement b ∧ b.limit = some n ∧
        0 ≤ n.toInt ∧ n.toInt ≤ 2 ∧
        (q.get p.connection decode pairs j).2.state =
          j.state ++ [.query statement.sql statement.params (.ok (given.take 2))]) ∧
      ∀ (β : Type) [Record β] (s t : Selection β), s.filter pairs = .ok t →
        s.get pairs = soleOf .records .ok t.list := by
  intro given
  have hnarrow : narrowed.clauses.bounds.NonNegative := filter_bounds hfilter ▸ hb
  have hprobed : narrowed.probed.clauses.bounds.NonNegative :=
    hnarrow.setLimit (Bounds.probe_nonneg hnarrow)
  -- The rows that come back are the first two of those given.
  have hsend (k : Journal (List Exchange)) :
      (narrowed.probed.send p.connection "get" narrowed.probed.select k).1 = .ok (given.take 2) := by
    have hserved := (hserves.limit narrowed.clauses.bounds.probe).send_select hprobed "get" k
    exact hserved.trans (congrArg Except.ok (Bounds.cut_probe hnarrow rows))
  refine ⟨?_, ?_, ?_, ?_⟩
  · intro k
    rw [hserves.execute hnarrow]
    exact List.mapM_pure.trans (congrArg Except.ok (List.map_id _))
  · rw [get_eq hfilter, Session.bind_of_ok (hsend _), Session.ofExcept_fst, soleOf_take_two]
  · obtain ⟨b, hbears, hlimit⟩ := narrowed.probed.select_bears hprobed
    refine ⟨_, b, _, hbears, hlimit, Bounds.probe_nonneg hnarrow, Bounds.probe_le_two _, ?_⟩
    rw [get_eq hfilter, Session.bind_of_ok (hsend _), Session.ofExcept_snd]
    exact p.send_state _ _ _ (hsend _)
  · exact fun β _ s t hfound => Selection.get_eq hfound

/-- The second page of five adults, three to a page, does not hold an only one. -/
theorem get_eq_sole_of_page :
    ∃ (q narrowed : Query) (p : Peer) (rows : List Row),
      (Query.ofBase .postgres "SELECT * FROM people").map (·.paginate 2 3) = .ok q ∧
      q.filter [("age__gte", .int 18)] = .ok narrowed ∧
      p.connection.Serves narrowed rows ∧ q.clauses.bounds.NonNegative ∧
      (q.get p.connection Except.ok [("age__gte", .int 18)] ⟨[], []⟩).1 =
        .error (.multipleResults .rows) ∧
      ∃ sql params, (q.get p.connection Except.ok [("age__gte", .int 18)] ⟨[], []⟩).2.state =
        [.query sql params (.ok (rows.drop 3))] := by
  let row (n : Int64) : Row := ⟨[("id", .int n)]⟩
  let rows : List Row := [row 1, row 2, row 3, row 4, row 5]
  let q : Query := ⟨.postgres, ⟨ofText "SELECT * FROM people", [], none, [], ⟨some 3, some 3⟩⟩⟩
  have hb : q.clauses.bounds.NonNegative :=
    (Bounds.NonNegative.empty.setLimit (n := 3) (by decide)).setOffset (n := 3) (by decide)
  obtain ⟨narrowed, hfilter⟩ : ∃ narrowed, q.filter [("age__gte", .int 18)] = .ok narrowed :=
    ⟨_, by rfl⟩
  have hgiven : narrowed.clauses.bounds.cut rows = rows.drop 3 := by
    rw [filter_bounds hfilter]
    rfl
  have hserves := (Connection.serving_serves narrowed rows).reading
  obtain ⟨-, hanswer, ⟨statement, -, -, -, -, -, -, hstate⟩, -⟩ :=
    get_eq_sole hfilter hserves hb Except.ok ⟨[], []⟩
  rw [hgiven] at hanswer hstate
  exact ⟨q, narrowed, _, rows, by rfl, hfilter, hserves, hb, hanswer, _, _, hstate⟩

end Query

end QueryChain
