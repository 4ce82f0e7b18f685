import QueryChain.Proofs.Paging
import QueryChain.Proofs.Reopening

/-!
Limits below zero. SQLite allows an offset only behind a limit, so an offset alone is written behind
a limit of -1, which SQLite takes for none. A query that is opened from such a statement keeps the
number: it selects the same rows, but a slice of it counts no rows behind the offset.
-/

namespace QueryChain

/-! ### What SQLite makes of bounds -/

/-- The bounds that SQLite takes a statement's for: a limit below zero is none. -/
def Bounds.withoutNegative (b : Bounds) : Bounds :=
  { b with limit := b.limit.filter (0 ≤ ·.toInt) }

def sqlitePage? {α : Type} (clause : Fragment) (rows : List α) : Option (List α) :=
  (Dialect.sqlite.paging? clause).map (·.withoutNegative.cut rows)

/-- The rows that SQLite returns for a query, of the result it has without its bounds. -/
def Query.page? {α : Type} (q : Query) (rows : List α) : Option (List α) :=
  sqlitePage? (q.dialect.bounds q.clauses.bounds (!q.clauses.orderBy.isEmpty)) rows

theorem Query.page?_eq {α : Type} {q : Query} (h : q.dialect = .sqlite) (rows : List α) :
    q.page? rows = some (q.clauses.bounds.withoutNegative.cut rows) := by
  have hread (b : Bounds) (ordered : Bool) :
      Dialect.sqlite.paging? (Dialect.sqlite.bounds b ordered) = some b := by
    obtain ⟨limit, offset⟩ := b
    cases limit <;> cases offset <;> rfl
  rw [page?, h, sqlitePage?, hread]
  rfl

namespace Bounds.NonNegative

variable {b : Bounds}

theorem withoutNegative (h : b.NonNegative) : b.withoutNegative = b := by
  obtain ⟨limit, offset⟩ := b
  cases limit with
  | none => rfl
  | some n =>
    have hn : 0 ≤ n.toInt := h.limit n rfl
    rw [Bounds.withoutNegative, Option.filter_some, if_pos (decide_eq_true hn)]

/-- What is written for SQLite is taken for what was asked for. -/
theorem withoutNegative_respell (h : b.NonNegative) :
    (Dialect.sqlite.respell b).withoutNegative = b := by
  obtain ⟨limit, offset⟩ := b
  cases limit with
  | none => cases offset <;> rfl
  | some n => cases offset <;> exact h.withoutNegative

/-- A slice counts no rows below zero, whatever it is a slice of. -/
theorem slice (h : ∀ n ∈ b.offset, 0 ≤ n.toInt) (start stop : Int64) :
    (b.slice start stop).NonNegative := by
  obtain ⟨limit, offset⟩ := b
  have hmax (a : Int64) : 0 ≤ (max a 0).toInt := by
    rw [Int64.toInt_max, Int64.toInt_zero]
    omega
  refine ⟨fun n hn => ?_, fun n hn => ?_⟩
  · obtain rfl := Option.some.inj hn
    cases limit with
    | none => exact hmax _
    | some m =>
      show 0 ≤ (min _ _ : Int64).toInt
      rw [Int64.toInt_min]
      exact Int.le_min.mpr ⟨hmax _, hmax _⟩
  · obtain rfl := Option.some.inj hn
    have hbase : 0 ≤ (offset.getD 0).toInt := by
      cases offset with
      | none => decide
      | some n => exact h n rfl
    have hstart := hmax start
    show 0 ≤ (saturate ((offset.getD 0).toInt + (max start 0).toInt)).toInt
    rw [toInt_saturate]
    omega

theorem paginate (page : Int64) {size : Int64} (hsize : 0 ≤ size.toInt) :
    (b.paginate page size).NonNegative := by
  refine ⟨fun n hn => ?_, fun n hn => ?_⟩
  · obtain rfl := Option.some.inj hn
    exact hsize
  · obtain rfl := Option.some.inj hn
    have hbefore : 0 ≤ (max (saturate (page.toInt - 1)) 0).toInt := by
      rw [Int64.toInt_max, Int64.toInt_zero]
      omega
    have hproduct := Int.mul_nonneg hbefore hsize
    rw [toInt_saturate]
    omega

end Bounds.NonNegative

/-! ### Slices -/

namespace Bounds

variable {α : Type} {b : Bounds} {rows : List α}

/-- An offset that is cut off lies behind the last row as well. -/
theorem drop_saturate (h : rows.length ≤ maxRows) (n : Int) :
    rows.drop (saturate n).toInt.toNat = rows.drop n.toNat := by
  rw [toInt_saturate]
  by_cases hn : n.toNat < maxRows
  · congr 1
    simp only [maxRows] at hn
    omega
  · simp only [maxRows] at h hn
    rw [List.drop_eq_nil_of_le (by omega), List.drop_eq_nil_of_le (by omega)]

/-- The number of rows of a slice, as far as the bounds allow it. -/
theorem toInt_room {start : Int64} (hstart : 0 ≤ start.toInt) (stop : Int64) :
    (max (saturate (stop.toInt - (max start 0).toInt)) 0).toInt.toNat =
      (stop.toInt - start.toInt).toNat := by
  have hstop := stop.toInt_lt
  rw [Int64.toInt_max, toInt_saturate, Int64.toInt_max, Int64.toInt_zero]
  omega

/-- A slice takes its range out of the rows within the bounds. -/
theorem cut_slice (hb : b.NonNegative) {start : Int64} (hstart : 0 ≤ start.toInt) (stop : Int64)
    (hrows : rows.length ≤ maxRows) :
    (b.slice start stop).cut rows =
      ((b.cut rows).drop start.toInt.toNat).take (stop.toInt - start.toInt).toNat := by
  obtain ⟨limit, offset⟩ := b
  have hbase : 0 ≤ (offset.getD 0).toInt := by
    cases offset with
    | none => decide
    | some n => exact hb.offset n rfl
  have hdrop : rows.drop (saturate ((offset.getD 0).toInt + (max start 0).toInt)).toInt.toNat =
      (rows.drop (offset.getD 0).toInt.toNat).drop start.toInt.toNat := by
    rw [drop_saturate hrows, List.drop_drop, Int64.toInt_max, Int64.toInt_zero]
    congr 1
    omega
  cases limit with
  | none =>
    show (rows.drop (saturate ((offset.getD 0).toInt + (max start 0).toInt)).toInt.toNat).take
      (max (saturate (stop.toInt - (max start 0).toInt)) 0).toInt.toNat = _
    rw [hdrop, toInt_room hstart]
    rfl
  | some limit =>
    show (rows.drop (saturate ((offset.getD 0).toInt + (max start 0).toInt)).toInt.toNat).take
        (min (max (saturate (stop.toInt - (max start 0).toInt)) 0)
          (max (saturate (limit.toInt - (max start 0).toInt)) 0)).toInt.toNat =
      (((rows.drop (offset.getD 0).toInt.toNat).take limit.toInt.toNat).drop
        start.toInt.toNat).take (stop.toInt - start.toInt).toNat
    have hmin (x y : Int) : (min x y).toNat = min x.toNat y.toNat := by omega
    have hlimit : (limit.toInt - start.toInt).toNat = limit.toInt.toNat - start.toInt.toNat := by
      omega
    rw [hdrop, Int64.toInt_min, hmin, toInt_room hstart, toInt_room hstart, hlimit,
      List.drop_take, List.take_take]

/-- A slice of a window with a limit below zero is empty. -/
theorem cut_slice_of_negative {n start : Int64} (hn : n.toInt < 0) (hlimit : b.limit = some n)
    (hstart : 0 ≤ start.toInt) (stop : Int64) : (b.slice start stop).cut rows = [] := by
  obtain ⟨limit, offset⟩ := b
  obtain rfl : limit = some n := hlimit
  show (rows.drop _).take (min (max _ 0) (max (saturate (n.toInt - (max start 0).toInt)) 0)
    : Int64).toInt.toNat = []
  have hroom := toInt_room hstart n
  have hzero : (min (max (saturate (stop.toInt - (max start 0).toInt)) 0)
      (max (saturate (n.toInt - (max start 0).toInt)) 0) : Int64).toInt.toNat = 0 := by
    rw [Int64.toInt_min]
    omega
  rw [hzero, List.take_zero]

end Bounds

/-! ### Chains -/

def Operation.NonNegative : Operation → Prop
  | .limit n | .offset n => 0 ≤ n.toInt
  | .slice m n | .paginate m n => 0 ≤ m.toInt ∧ 0 ≤ n.toInt
  | _ => True

theorem Operation.nonNegative_run {op : Operation} (hop : op.NonNegative) {q q' : Query}
    (hq : q.clauses.bounds.NonNegative) (h : op.run q = .ok q') :
    q'.clauses.bounds.NonNegative := by
  cases op with
  | limit n =>
    obtain rfl := Except.ok.inj h
    exact hq.setLimit hop
  | offset n =>
    obtain rfl := Except.ok.inj h
    exact hq.setOffset hop
  | slice start stop =>
    obtain rfl := Except.ok.inj h
    exact .slice hq.offset start stop
  | paginate page size =>
    obtain rfl := Except.ok.inj h
    exact .paginate page hop.2
  | filter pairs | exclude pairs | order specs =>
    obtain ⟨-, -, rfl⟩ := Except.map_eq_ok.mp h
    exact hq
  | search field needle =>
    simp only [run, Query.search] at h
    split at h
    · obtain rfl := Except.ok.inj h
      exact hq
    · obtain ⟨-, -, rfl⟩ := Except.map_eq_ok.mp h
      exact hq
  | groupBy fields =>
    obtain ⟨columns, -, rfl⟩ := Except.map_eq_ok.mp h
    split <;> exact hq

theorem Query.nonNegative_chain {q q' : Query} {ops : List Operation}
    (hops : ∀ op ∈ ops, op.NonNegative) (hq : q.clauses.bounds.NonNegative)
    (h : q.chain ops = .ok q') : q'.clauses.bounds.NonNegative := by
  induction ops generalizing q with
  | nil =>
    obtain rfl := Except.ok.inj h
    exact hq
  | cons op rest ih =>
    obtain ⟨hop, hrest⟩ := List.forall_mem_cons.mp hops
    obtain ⟨next, hnext, h⟩ := chain_cons_ok.mp h
    exact ih hrest (Operation.nonNegative_run hop hq hnext) h

/-- The clauses of a reopened statement, without their bounds, are those of the query with the
condition in parentheses. -/
theorem Clauses.unbounded_reopened (c : Clauses) :
    Query.unbounded ⟨.sqlite, c.reopened .sqlite⟩ = c.selectAs Fragment.enclose {} .sqlite := by
  have hreopened := select_reopened .sqlite { c with bounds := {} }
  rw [select, bounds_unbounded _ rfl, Fragment.append_empty] at hreopened
  exact hreopened

theorem Clauses.unbounded_eq_selectAs (c : Clauses) :
    Query.unbounded ⟨.sqlite, c⟩ = c.selectAs id {} .sqlite := by
  have hselect := select_eq_selectAs .sqlite { c with bounds := {} }
  rw [select, bounds_unbounded _ rfl, Fragment.append_empty] at hselect
  exact hselect

/-- What SQLite returns for a slice is counted by its bounds. -/
theorem Query.page?_slice {α : Type} {q : Query} (h : q.dialect = .sqlite)
    (hoffset : ∀ n ∈ q.clauses.bounds.offset, 0 ≤ n.toInt) (start stop : Int64) (rows : List α) :
    (q.slice start stop).page? rows = some ((q.clauses.bounds.slice start stop).cut rows) := by
  have hslice := Bounds.NonNegative.slice hoffset start stop
  have hpage := page?_eq (q := q.slice start stop) h rows
  rw [hpage]
  exact congrArg (fun b : Bounds => some (b.cut rows)) hslice.withoutNegative

/-- A query for SQLite that is opened from the statement of another one is that one with its
condition in parentheses, and has the same rows. A slice of the one is the range of these rows that
it is asked for; a slice of the other is the same unless an offset stands without a limit, and then
it is empty. -/
theorem Query.slices_of_reopened {table : String} {q q' : Query} {ops : List Operation}
    (hq : ofTable .sqlite table = .ok q) (hops : ∀ op ∈ ops, op.NonNegative)
    (h : q.chain ops = .ok q') :
    ∃ r, ofBaseWith .sqlite q'.select.sql q'.select.params = .ok r ∧
      q'.unbounded = q'.clauses.selectAs id {} .sqlite ∧
      r.unbounded = q'.clauses.selectAs Fragment.enclose {} .sqlite ∧
      ∀ (α : Type) (rows : List α),
        r.page? rows = q'.page? rows ∧
        ∀ start stop : Int64, 0 ≤ start.toInt →
          (rows.length ≤ maxRows → ∃ current, q'.page? rows = some current ∧
            (q'.slice start stop).page? rows = some
              ((current.drop start.toInt.toNat).take (stop.toInt - start.toInt).toNat)) ∧
          (q'.clauses.bounds.limit ≠ none ∨ q'.clauses.bounds.offset = none →
            (r.slice start stop).page? rows = (q'.slice start stop).page? rows) ∧
          (q'.clauses.bounds.limit = none → q'.clauses.bounds.offset ≠ none →
            (r.slice start stop).page? rows = some []) := by
  have hopened := ofBaseWith_select hq h
  have hb : q'.clauses.bounds.NonNegative := by
    obtain ⟨name, -, rfl⟩ := ofTable_ok hq
    exact nonNegative_chain hops .empty h
  have hdialect := (chain_onTable hq h).1
  obtain ⟨d, c⟩ := q'
  obtain rfl : d = .sqlite := hdialect
  refine ⟨_, hopened, c.unbounded_eq_selectAs, c.unbounded_reopened, fun α rows => ⟨?_, ?_⟩⟩
  · rw [page?_eq rfl, page?_eq rfl, hb.withoutNegative]
    exact congrArg (fun b : Bounds => some (b.cut rows)) hb.withoutNegative_respell
  intro start stop hstart
  obtain ⟨head, conditions, groupBy, orderBy, limit, offset⟩ := c
  have hoffset : ∀ n ∈ (Dialect.sqlite.respell ⟨limit, offset⟩).offset, 0 ≤ n.toInt := by
    cases limit <;> cases offset <;> exact hb.offset
  rw [page?_slice rfl hb.offset, page?_slice rfl hoffset]
  refine ⟨fun hrows => ?_, fun hgood => ?_, fun hlimit hoffset => ?_⟩
  · refine ⟨_, page?_eq rfl rows, ?_⟩
    rw [hb.withoutNegative, Bounds.cut_slice hb hstart stop hrows]
  · -- Such bounds are written as they are.
    have hsame : Dialect.sqlite.respell ⟨limit, offset⟩ = ⟨limit, offset⟩ := by
      rcases hgood with hsome | hnone
      · cases limit with
        | none => exact absurd rfl hsome
        | some n => cases offset <;> rfl
      · obtain rfl : offset = none := hnone
        cases limit <;> rfl
    exact congrArg (fun b : Bounds => some ((b.slice start stop).cut rows)) hsame
  · obtain rfl : limit = none := hlimit
    obtain ⟨n, rfl⟩ := Option.ne_none_iff_exists'.mp hoffset
    exact congrArg some (Bounds.cut_slice_of_negative (n := -1) (by decide) rfl hstart stop)

/-- The second page of three rows, sliced beyond its end. -/
theorem Query.slices_of_reopened_page :
    ∃ q q' r, ofTable .sqlite "t" = .ok q ∧
      (∀ op ∈ [Operation.filter [("a__gte", .int 1)], .paginate 2 3], op.NonNegative) ∧
      q.chain [.filter [("a__gte", .int 1)], .paginate 2 3] = .ok q' ∧
      ofBaseWith .sqlite q'.select.sql q'.select.params = .ok r ∧
      (r.slice 1 9).page? [1, 2, 3, 4, 5, 6, 7] = some [5, 6] := by
  have hmade : ((ofTable .sqlite "t").bind
      (·.chain [.filter [("a__gte", .int 1)], .paginate 2 3])).map (·.clauses.bounds) =
        .ok ⟨some 3, some 3⟩ :=
    Except.eq_ok_of_toOption (by decide +kernel)
  obtain ⟨q', hq', hbounds⟩ := Except.map_eq_ok.mp hmade
  obtain ⟨q, hq, hchain⟩ := Except.bind_eq_ok.mp hq'
  have hops : ∀ op ∈ [Operation.filter [("a__gte", .int 1)], .paginate 2 3], op.NonNegative :=
    List.forall_mem_cons.mpr ⟨trivial, List.forall_mem_singleton.mpr ⟨by decide, by decide⟩⟩
  obtain ⟨r, hr, -, -, hrows⟩ := slices_of_reopened hq hops hchain
  obtain ⟨-, hslices⟩ := hrows Nat [1, 2, 3, 4, 5, 6, 7]
  obtain ⟨-, hsame, -⟩ := hslices 1 9 (by decide)
  refine ⟨q, q', r, hq, hops, hchain, hr, ?_⟩
  have hdialect := (chain_onTable hq hchain).1
  have hlimit : q'.clauses.bounds.limit ≠ none := by
    rw [hbounds]
    exact Option.some_ne_none 3
  have hoffset : ∀ n ∈ q'.clauses.bounds.offset, 0 ≤ n.toInt := by
    intro n hn
    rw [hbounds] at hn
    obtain rfl := Option.some.inj hn
    decide
  rw [hsame (.inl hlimit), page?_slice hdialect hoffset, hbounds]
  decide +kernel

/-- An offset without a limit: both queries select the rows behind it, but no slice of the reopened
one has a row. -/
theorem Query.slice_of_reopened_offset :
    ∃ q r, (ofTable .sqlite "t").map (·.offset 2) = .ok q ∧
      ofBaseWith .sqlite q.select.sql q.select.params = .ok r ∧
      q.page? [1, 2, 3, 4] = some [3, 4] ∧ r.page? [1, 2, 3, 4] = some [3, 4] ∧
      (q.slice 0 5).page? [1, 2, 3, 4] = some [3, 4] ∧
      (r.slice 0 5).page? [1, 2, 3, 4] = some [] := by
  have hpages : ((ofTable .sqlite "t").map (·.offset 2)).bind (fun q =>
      (ofBaseWith .sqlite q.select.sql q.select.params).map fun r =>
        decide (q.page? [1, 2, 3, 4] = some [3, 4] ∧ r.page? [1, 2, 3, 4] = some [3, 4] ∧
          (q.slice 0 5).page? [1, 2, 3, 4] = some [3, 4] ∧
          (r.slice 0 5).page? [1, 2, 3, 4] = some [])) = .ok true :=
    Except.eq_ok_of_toOption (by decide +kernel)
  obtain ⟨q, hq, hopened⟩ := Except.bind_eq_ok.mp hpages
  obtain ⟨r, hr, hfacts⟩ := Except.map_eq_ok.mp hopened
  exact ⟨q, r, hq, hr, of_decide_eq_true hfacts⟩

end QueryChain
