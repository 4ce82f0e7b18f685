import QueryChain.Proofs.Pieces
import QueryChain.Proofs.Transcript
import QueryChain.Proofs.Windows
import QueryChain.Query.Run

/-!
Reading operations over a database that honours the bounds of the statements it is sent. The rows
that an operation is given are those of the whole result within its bounds; the first record is
asked for with a limit of one, so it is that of the records listed unless the query itself has a
limit of zero.
-/

namespace QueryChain

open Fragment (ofText)

/-! ### What bounds ask for -/

/-- Whether no bound is negative. What databases make of other bounds differs. -/
structure Bounds.NonNegative (b : Bounds) : Prop where
  limit : ∀ n ∈ b.limit, 0 ≤ n.toInt
  offset : ∀ n ∈ b.offset, 0 ≤ n.toInt

namespace Bounds.NonNegative

theorem empty : ({} : Bounds).NonNegative := by
  constructor <;> intro n hn <;> cases hn

variable {b : Bounds}

theorem setLimit (h : b.NonNegative) {n : Int64} (hn : 0 ≤ n.toInt) :
    (b.setLimit n).NonNegative := by
  refine ⟨?_, h.offset⟩
  intro m hm
  obtain rfl := Option.some.inj hm
  exact hn

theorem setOffset (h : b.NonNegative) {n : Int64} (hn : 0 ≤ n.toInt) :
    (b.setOffset n).NonNegative := by
  refine ⟨h.limit, ?_⟩
  intro m hm
  obtain rfl := Option.some.inj hm
  exact hn

end Bounds.NonNegative

/-- The order by nothing, without which T-SQL bounds no unordered rows. -/
def anyOrder : String := " ORDER BY (SELECT NULL)"

def Dialect.paging? (d : Dialect) (clause : Fragment) : Option Bounds :=
  match d, clause.sql, clause.params with
  | _, "", [] => some ⟨none, none⟩
  | .tsql, " OFFSET ? ROWS", [.int n] => some ⟨none, some n⟩
  | .tsql, " OFFSET ? ROWS FETCH NEXT ? ROWS ONLY", [.int n, .int m] => some ⟨some m, some n⟩
  | .tsql, " OFFSET 0 ROWS FETCH NEXT ? ROWS ONLY", [.int m] => some ⟨some m, some 0⟩
  | .postgres, " LIMIT %s", [.int m] => some ⟨some m, none⟩
  | .postgres, " OFFSET %s", [.int n] => some ⟨none, some n⟩
  | .postgres, " LIMIT %s OFFSET %s", [.int m, .int n] => some ⟨some m, some n⟩
  | .sqlite, " LIMIT ?", [.int m] => some ⟨some m, none⟩
  | .sqlite, " LIMIT -1 OFFSET ?", [.int n] => some ⟨none, some n⟩
  | .sqlite, " LIMIT ? OFFSET ?", [.int m, .int n] => some ⟨some m, some n⟩
  | _, _, _ => none

/-- A dialect writes bounds in a clause that has them, up to an offset of zero. -/
theorem Dialect.bounds_paging (d : Dialect) {b : Bounds} (hb : b.NonNegative) (ordered : Bool) :
    ∃ clause b', d.paging? clause = some b' ∧ b'.NonNegative ∧ b'.limit = b.limit ∧
      (∀ rows : List Row, b'.cut rows = b.cut rows) ∧
      (d.bounds b ordered = clause ∨
        d = .tsql ∧ ordered = false ∧ d.bounds b ordered = ofText anyOrder ++ clause) := by
  obtain ⟨limit, offset⟩ := b
  cases d with
  | sqlite => cases limit <;> cases offset <;> exact ⟨_, _, rfl, hb, rfl, fun _ => rfl, .inl rfl⟩
  | postgres => cases limit <;> cases offset <;> exact ⟨_, _, rfl, hb, rfl, fun _ => rfl, .inl rfl⟩
  | tsql =>
    -- Rows without an order get one, unless nothing bounds them.
    have hplace {b : Bounds} {clause : Fragment} (hordered : tsql.bounds b true = clause)
        (hany : tsql.bounds b false = ofText anyOrder ++ clause) :
        tsql.bounds b ordered = clause ∨ tsql = tsql ∧ ordered = false ∧
          tsql.bounds b ordered = ofText anyOrder ++ clause := by
      cases ordered with
      | true => exact .inl hordered
      | false => exact .inr ⟨rfl, rfl, hany⟩
    cases limit with
    | none =>
      cases offset with
      | none => exact ⟨_, _, rfl, hb, rfl, fun _ => rfl, .inl rfl⟩
      | some n =>
        exact ⟨⟨" OFFSET ? ROWS", [.int n]⟩, _, rfl, hb, rfl, fun _ => rfl, hplace rfl rfl⟩
    | some m =>
      cases offset with
      | none =>
        exact ⟨⟨" OFFSET 0 ROWS FETCH NEXT ? ROWS ONLY", [.int m]⟩, _, rfl,
          hb.setOffset (n := 0) (by decide), rfl, fun _ => rfl, hplace rfl rfl⟩
      | some n =>
        exact ⟨⟨" OFFSET ? ROWS FETCH NEXT ? ROWS ONLY", [.int n, .int m]⟩, _, rfl, hb,
          rfl, fun _ => rfl, hplace rfl rfl⟩

/-! ### Databases that honour them -/

def Query.unbounded (q : Query) : Fragment :=
  q.clauses.writeFiltered q.dialect ++ q.clauses.writeOrder

theorem Query.select_eq_unbounded (q : Query) :
    q.select = q.unbounded ++ q.dialect.bounds q.clauses.bounds (!q.clauses.orderBy.isEmpty) := rfl

/-- Whether a connection answers the SELECT of a query with the given rows as far as they lie in
the bounds that the statement carries, whatever was done over the connection before. -/
structure Connection.Serves {σ : Type} (c : Connection σ) (q : Query) (rows : List Row) : Prop where
  bounded : ∀ clause b, q.dialect.paging? clause = some b → b.NonNegative → ∀ j,
    (c.query (q.unbounded ++ clause).sql (q.unbounded ++ clause).params j).1 = .ok (b.cut rows)
  reordered : q.dialect = .tsql → q.clauses.orderBy = [] → ∀ clause b,
    q.dialect.paging? clause = some b → b.NonNegative → ∀ j,
      (c.query (q.unbounded ++ (ofText anyOrder ++ clause)).sql
        (q.unbounded ++ (ofText anyOrder ++ clause)).params j).1 = .ok (b.cut rows)

namespace Connection.Serves

variable {σ α : Type} {c : Connection σ} {q : Query} {rows : List Row}

/-- The bounds of the query itself do not matter. -/
theorem limit (h : c.Serves q rows) (n : Int64) : c.Serves (q.limit n) rows :=
  ⟨h.bounded, h.reordered⟩

/-- What the SELECT of the query is answered with. -/
theorem send_select (h : c.Serves q rows) (hb : q.clauses.bounds.NonNegative) (op : String)
    (j : Journal σ) : (q.send c op q.select j).1 = .ok (q.clauses.bounds.cut rows) := by
  obtain ⟨clause, b, hclause, hnonneg, -, hcut, hbounds⟩ :=
    q.dialect.bounds_paging hb (!q.clauses.orderBy.isEmpty)
  rw [← hcut, q.select_eq_unbounded]
  obtain hplain | ⟨hdialect, horder, hany⟩ := hbounds
  · rw [hplain]
    exact h.bounded clause b hclause hnonneg _
  · have hempty : q.clauses.orderBy = [] := by simpa using horder
    rw [hany]
    exact h.reordered hdialect hempty clause b hclause hnonneg _

theorem execute (h : c.Serves q rows) (hb : q.clauses.bounds.NonNegative)
    (decode : Row → Except Failure α) (j : Journal σ) :
    (q.execute c decode j).1 = (q.clauses.bounds.cut rows).mapM decode := by
  rw [Query.execute, Session.bind_of_ok (h.send_select hb "execute" j), Session.ofExcept_fst]

/-- The first record is looked for behind the offset, whatever the limit is. -/
theorem first (h : c.Serves q rows) (hb : q.clauses.bounds.NonNegative)
    (decode : Row → Except Failure α) (j : Journal σ) :
    (q.first c decode j).1 =
      ((rows.drop (q.clauses.bounds.offset.getD 0).toInt.toNat).head?).mapM decode := by
  have hone : (q.limit 1).clauses.bounds.NonNegative := hb.setLimit (by decide)
  have hsend := (h.limit 1).send_select hone "first" j
  have hcut : (q.limit 1).clauses.bounds.cut rows =
      (rows.drop (q.clauses.bounds.offset.getD 0).toInt.toNat).take 1 := rfl
  rw [Query.first, Session.bind_of_ok hsend, hcut]
  cases rows.drop (q.clauses.bounds.offset.getD 0).toInt.toNat with
  | nil => rfl
  | cons row rest =>
    show (Session.ofExcept _ _).1 = _
    rw [Session.ofExcept_fst]
    rfl

end Connection.Serves

/-- A record exists if a first one is found. -/
theorem Query.hasAny_fst {σ α : Type} (c : Connection σ) (decode : Row → Except Failure α)
    (q : Query) (j : Journal σ) :
    (q.hasAny c decode j).1 = ((q.first c decode j).1).map Option.isSome := by
  change (((q.first c decode).bind fun record => Session.pure record.isSome) j).1 = _
  rw [Session.bind]
  generalize q.first c decode j = answer
  obtain ⟨result, k⟩ := answer
  cases result <;> rfl

/-! ### A database of one query -/

/-- A database that answers one SELECT, under whatever bounds, with the given rows. -/
def Connection.serving (q : Query) (rows : List Row) : Connection Unit where
  query sql params :=
    let rest := sql.toList.drop q.unbounded.sql.toList.length
    let clause := if anyOrder.toList <+: rest then rest.drop anyOrder.toList.length else rest
    match q.dialect.paging? ⟨String.ofList clause, params.drop q.unbounded.params.length⟩ with
    | some b => Session.pure (b.cut rows)
    | none => Session.fail (.connection "no such statement")
  execute _ _ := Session.fail (.connection "read only")
  commit := Session.pure ()

theorem Dialect.not_anyOrder_of_paging {d : Dialect} {clause : Fragment} {b : Bounds}
    (h : d.paging? clause = some b) : ¬ anyOrder.toList <+: clause.sql.toList := by
  simp only [paging?] at h
  split at h
  case h_11 => cases h
  all_goals
    rename_i hsql _
    rw [hsql]
    decide

theorem Connection.serving_serves (q : Query) (rows : List Row) :
    (serving q rows).Serves q rows := by
  constructor
  · intro clause b hclause _ j
    simp only [serving, Fragment.sql_append, Fragment.params_append, String.toList_append,
      List.drop_left, if_neg (Dialect.not_anyOrder_of_paging hclause), String.ofList_toList,
      hclause]
    rfl
  · intro _ _ clause b hclause _ j
    simp only [serving, Fragment.sql_append, Fragment.params_append, Fragment.sql_ofText,
      Fragment.params_ofText, List.nil_append, String.toList_append, List.drop_left,
      if_pos (List.prefix_append _ _), String.ofList_toList, hclause]
    rfl

/-! ### The first record -/

/-- A limit that is not zero leaves the first row where it is. -/
theorem Bounds.head?_cut {α : Type} {b : Bounds} (hb : b.NonNegative) (hne : b.limit ≠ some 0)
    (rows : List α) :
    (b.cut rows).head? = (rows.drop (b.offset.getD 0).toInt.toNat).head? := by
  obtain ⟨limit, offset⟩ := b
  cases limit with
  | none => rfl
  | some n =>
    have hn : 0 ≤ n.toInt := hb.limit n rfl
    have hzero : n.toInt ≠ 0 := by
      intro hzero
      exact hne (congrArg some (Int64.toInt_inj.mp hzero))
    show (List.take _ _).head? = _
    rw [List.head?_take, if_neg (by omega)]

theorem head?_of_mapM_ok {ε α β : Type} {f : α → Except ε β} {xs : List α} {ys : List β}
    (h : xs.mapM f = .ok ys) : xs.head?.mapM f = .ok ys.head? := by
  cases forall₂_of_mapM_ok h with
  | nil => rfl
  | cons hxy _ =>
    show Except.map _ _ = _
    rw [hxy]
    rfl

/-- Over a database that honours the bounds of its statements, the first record is the first of
those that are listed and one exists if any is listed, unless the limit of the query is zero: then
none is listed, and the first record behind the offset is found nevertheless. Of records in memory
the first is always the first that is listed. -/
theorem Query.first_eq_head_execute {σ α : Type} {c : Connection σ} {q : Query} {rows : List Row}
    (h : c.Serves q rows) (hb : q.clauses.bounds.NonNegative) (decode : Row → Except Failure α) :
    (∀ j, (q.execute c decode j).1 = (q.clauses.bounds.cut rows).mapM decode) ∧
      (q.clauses.bounds.limit ≠ some 0 → ∀ j,
        (q.first c decode j).1 = (q.clauses.bounds.cut rows).head?.mapM decode ∧
        ∀ records, (q.execute c decode j).1 = .ok records → ∀ k,
          (q.first c decode k).1 = .ok records.head? ∧
          (q.hasAny c decode k).1 = .ok (!records.isEmpty)) ∧
      (q.clauses.bounds.limit = some 0 → ∀ j,
        (q.execute c decode j).1 = .ok [] ∧
        (q.first c decode j).1 =
          (rows.drop (q.clauses.bounds.offset.getD 0).toInt.toNat).head?.mapM decode ∧
        (q.hasAny c decode j).1 = ((q.first c decode j).1).map Option.isSome) ∧
      ∀ (β : Type) [Record β] (s : Selection β),
        s.first? = s.list.head? ∧ s.hasAny = !s.list.isEmpty := by
  refine ⟨h.execute hb decode, ?_, ?_, fun β _ s => ⟨rfl, rfl⟩⟩
  · intro hne j
    have hfirst (k : Journal σ) :
        (q.first c decode k).1 = (q.clauses.bounds.cut rows).head?.mapM decode := by
      rw [h.first hb, Bounds.head?_cut hb hne]
    refine ⟨hfirst j, ?_⟩
    intro records hrecords k
    rw [h.execute hb] at hrecords
    have hhead := (hfirst k).trans (head?_of_mapM_ok hrecords)
    refine ⟨hhead, ?_⟩
    rw [hasAny_fst, hhead]
    cases records <;> rfl
  · intro hzero j
    refine ⟨?_, h.first hb decode j, q.hasAny_fst c decode j⟩
    have hcut : q.clauses.bounds.cut rows = [] := by
      rw [Bounds.cut, hzero]
      exact List.take_zero
    rw [h.execute hb, hcut]
    rfl

/-- The second page of three rows. -/
theorem Query.first_eq_head_of_page :
    ∃ (q : Query) (rows : List Row),
      (Query.ofBase .tsql "SELECT * FROM t").map (·.paginate 2 2) = .ok q ∧
      (Connection.serving q rows).Serves q rows ∧ q.clauses.bounds.NonNegative ∧
      (q.execute (Connection.serving q rows) Except.ok ⟨(), []⟩).1 = .ok [⟨[("id", .int 3)]⟩] ∧
      (q.first (Connection.serving q rows) Except.ok ⟨(), []⟩).1 = .ok (some ⟨[("id", .int 3)]⟩) ∧
      (q.hasAny (Connection.serving q rows) Except.ok ⟨(), []⟩).1 = .ok true := by
  let q : Query := ⟨.tsql, ⟨ofText "SELECT * FROM t", [], none, [], ⟨some 2, some 2⟩⟩⟩
  let rows : List Row := [⟨[("id", .int 1)]⟩, ⟨[("id", .int 2)]⟩, ⟨[("id", .int 3)]⟩]
  have hserves := Connection.serving_serves q rows
  have hb : q.clauses.bounds.NonNegative :=
    (Bounds.NonNegative.empty.setLimit (n := 2) (by decide)).setOffset (n := 2) (by decide)
  obtain ⟨hexecute, hfirst, -⟩ := first_eq_head_execute hserves hb Except.ok
  obtain ⟨-, hrest⟩ := hfirst (by decide) ⟨(), []⟩
  obtain ⟨hhead, hany⟩ := hrest _ (hexecute _) ⟨(), []⟩
  exact ⟨q, rows, by rfl, hserves, hb, hexecute _, hhead, hany⟩

/-- Under a limit of zero no record is listed, but a first one is found. -/
theorem Query.first_ignores_limit_of_zero :
    ∃ (q : Query) (rows : List Row),
      (Query.ofBase .sqlite "SELECT * FROM t").map (·.limit 0) = .ok q ∧
      (Connection.serving q rows).Serves q rows ∧ q.clauses.bounds.NonNegative ∧
      (q.execute (Connection.serving q rows) Except.ok ⟨(), []⟩).1 = .ok [] ∧
      (q.first (Connection.serving q rows) Except.ok ⟨(), []⟩).1 = .ok (some ⟨[("id", .int 1)]⟩) ∧
      (q.hasAny (Connection.serving q rows) Except.ok ⟨(), []⟩).1 = .ok true := by
  let q : Query := ⟨.sqlite, ⟨ofText "SELECT * FROM t", [], none, [], ⟨some 0, none⟩⟩⟩
  let rows : List Row := [⟨[("id", .int 1)]⟩]
  have hserves := Connection.serving_serves q rows
  have hb : q.clauses.bounds.NonNegative :=
    Bounds.NonNegative.empty.setLimit (n := 0) (by decide)
  have hfirst := hserves.first hb Except.ok ⟨(), []⟩
  refine ⟨q, rows, by rfl, hserves, hb, hserves.execute hb _ _, hfirst, ?_⟩
  rw [hasAny_fst, hfirst]
  rfl

end QueryChain
