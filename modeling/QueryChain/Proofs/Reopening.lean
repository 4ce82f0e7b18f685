import QueryChain.Proofs.Composition
import QueryChain.Proofs.Segments

/-!
Queries that are opened from their own statements. The SELECT of a query of a table is taken apart
into the clauses it was assembled from: the conditions become one, bounds that are spelled as
numerals become parameters, and all else is as it was.
-/

namespace QueryChain

open Fragment (ofText)
open Text (sameLetters words)

/-! ### Reading them again -/

def Fragment.enclose (f : Fragment) : Fragment :=
  ofText "(" ++ f ++ ofText ")"

/-- Whether a text is another one in which at most one numeral became a parameter. -/
inductive Fragment.BindsNumeral (p : Placeholder) : Fragment → Fragment → Prop
  | same (f : Fragment) : BindsNumeral p f f
  | bind (before after : Fragment) (numeral : String) {n : Int64}
      (h : Number.readInt64 numeral = .ok n) :
      BindsNumeral p (before ++ ofText numeral ++ after) (before ++ p.bind (.int n) ++ after)

/-- The bounds as a statement of the dialect spells them. T-SQL has no limit without an offset, and
SQLite no offset without a limit, of which -1 is none. -/
def Dialect.respell : Dialect → Bounds → Bounds
  | .tsql, ⟨some m, none⟩ => ⟨some m, some 0⟩
  | .sqlite, ⟨none, some n⟩ => ⟨some (-1), some n⟩
  | _, b => b

namespace Clauses

def joined (d : Dialect) (c : Clauses) : List Condition :=
  if c.conditions.isEmpty then []
  else [.given (.enclose (.series "" " AND " (c.conditions.map (·.write d))))]

/-- The clauses that the statement of a query is taken apart into. -/
def reopened (d : Dialect) (c : Clauses) : Clauses where
  head := c.head
  conditions := c.joined d
  groupBy := c.groupBy
  orderBy := if c.writtenOrder d = [] then [] else [.series "" ", " (c.writtenOrder d)]
  bounds := d.respell c.bounds

end Clauses

/-! ### Bounds as they are read -/

def BoundClause.keyword : BoundClause → Keyword
  | .limit => .limit
  | .offset => .offset

def Bounds.set (clause : BoundClause) (n : Int64) (b : Bounds) : Bounds :=
  match clause with
  | .limit => b.setLimit n
  | .offset => b.setOffset n

theorem boundNumber?_token (p : Placeholder) (n : Int64) (rest : List Value) :
    boundNumber? p p.token (.int n :: rest) = some (n, rest) := by
  rw [boundNumber?, if_pos rfl]

theorem liftBound?_token (p : Placeholder) (clause : BoundClause) (n : Int64) (b : Bounds) :
    liftBound? p clause ⟨p.token, [.int n]⟩ b = some (b.set clause n) := by
  have hwords : words p.token = [p.token] := by cases p <;> rfl
  cases clause <;> simp only [liftBound?, hwords, boundNumber?_token] <;> rfl

theorem liftBound?_rows (n : Int64) (b : Bounds) :
    liftBound? .question .offset ⟨"? ROWS", [.int n]⟩ b = some (b.setOffset n) := by
  have hwords : words "? ROWS" = [Placeholder.question.token, "ROWS"] := by rfl
  have hrows : isRows "ROWS" = true := by rfl
  simp only [liftBound?, hwords, hrows, if_true, boundNumber?_token]
  rfl

/-- The limit of T-SQL stands behind an offset, which may be a numeral. -/
theorem liftBound?_fetch {sql word : String} {params : List Value} {n m : Int64}
    (hwords : words sql =
      [word, "ROWS", "FETCH", "NEXT", Placeholder.question.token, "ROWS", "ONLY"])
    (hn : boundNumber? .question word params = some (n, [.int m])) (b : Bounds) :
    liftBound? .question .offset ⟨sql, params⟩ b = some ⟨some m, some n⟩ := by
  have hguard : (isRows "ROWS" && sameLetters "FETCH" "FETCH" &&
      (sameLetters "NEXT" "NEXT" || sameLetters "NEXT" "FIRST") && isRows "ROWS" &&
      sameLetters "ONLY" "ONLY") = true := by rfl
  simp only [liftBound?, hwords, hguard, if_true, hn, Option.bind_some, boundNumber?_token]
  rfl

/-! ### Clauses as they are added -/

namespace Segment

variable {p : Placeholder} {c : Clauses}

theorem addAll_append (ss ts : List Segment) :
    addAll p (ss ++ ts) c = (addAll p ss c).bind fun c => addAll p ts c :=
  List.foldlM_append

theorem addAll_cons {s : Segment} {c' : Clauses} (h : c.addCut p s.keyword s.body = .ok c')
    (rest : List Segment) : addAll p (s :: rest) c = addAll p rest c' := by
  rw [addAll, List.foldlM_cons, h]
  rfl

theorem addCut_bound (clause : BoundClause) {body : Fragment} {b : Bounds}
    (h : liftBound? p clause body c.bounds = some b) :
    c.addCut p clause.keyword body = .ok { c with bounds := b } := by
  cases clause <;> simp only [BoundClause.keyword, Clauses.addCut, h]

theorem addCut_condition {body : Fragment} (h : Firm body.sql) :
    c.addCut p .condition body =
      .ok { c with conditions := c.conditions ++ [.given (.enclose body)] } := by
  simp only [Clauses.addCut, h.isEmpty, Bool.false_eq_true, if_false, Fragment.enclose]

theorem addCut_groupBy {body : Fragment} (h : Firm body.sql) :
    c.addCut p .groupBy body = .ok { c with groupBy := some body } := by
  simp only [Clauses.addCut, h.isEmpty, Bool.false_eq_true, if_false]

theorem addCut_orderBy {body : Fragment} (h : Firm body.sql) :
    c.addCut p .orderBy body = .ok { c with orderBy := c.orderBy ++ [body] } := by
  simp only [Clauses.addCut, h.isEmpty, Bool.false_eq_true, if_false]

/-- The bounds of a statement are read as the dialect spells them. -/
theorem addAll_boundSegments (d : Dialect) (b : Bounds) (hc : c.bounds = {}) :
    addAll d.placeholder (d.boundSegments b) c = .ok { c with bounds := d.respell b } := by
  obtain ⟨head, conditions, groupBy, orderBy, bounds⟩ := c
  obtain rfl := hc
  obtain ⟨limit, offset⟩ := b
  cases d with
  | tsql =>
    rcases limit with _ | m <;> rcases offset with _ | n
    · rfl
    · exact addAll_cons (addCut_bound .offset (liftBound?_rows n _)) []
    · exact addAll_cons (addCut_bound .offset (liftBound?_fetch (by rfl) (by rfl) _)) []
    · exact addAll_cons (addCut_bound .offset
        (liftBound?_fetch (by rfl) (boundNumber?_token .question n [.int m]) _)) []
  | postgres =>
    rcases limit with _ | m <;> rcases offset with _ | n
    · rfl
    · exact addAll_cons (addCut_bound .offset (liftBound?_token .percent .offset n _)) []
    · exact addAll_cons (addCut_bound .limit (liftBound?_token .percent .limit m _)) []
    · exact (addAll_cons (addCut_bound .limit (liftBound?_token .percent .limit m _)) _).trans
        (addAll_cons (addCut_bound .offset (liftBound?_token .percent .offset n _)) [])
  | sqlite =>
    rcases limit with _ | m <;> rcases offset with _ | n
    · rfl
    · exact (addAll_cons (addCut_bound .limit (b := ⟨some (-1), none⟩) (by rfl)) _).trans
        (addAll_cons (addCut_bound .offset (liftBound?_token .question .offset n _)) [])
    · exact addAll_cons (addCut_bound .limit (liftBound?_token .question .limit m _)) []
    · exact (addAll_cons (addCut_bound .limit (liftBound?_token .question .limit m _)) _).trans
        (addAll_cons (addCut_bound .offset (liftBound?_token .question .offset n _)) [])

end Segment

namespace Clauses

variable {name : QualifiedName} {d : Dialect} {c : Clauses}

/-- The clauses of a statement are added to its head as one condition, one group and one order. -/
theorem OnTable.addAll_segments (hc : c.OnTable name) :
    Segment.addAll d.placeholder (c.segments d) ⟨c.head, [], none, [], {}⟩ =
      .ok (c.reopened d) := by
  have hlegible := hc.legible_segments (d := d)
  simp only [segments, List.forall_mem_append] at hlegible
  obtain ⟨⟨⟨hconditions, hgroup⟩, horder⟩, -⟩ := hlegible
  have hjoined : Segment.addAll d.placeholder
      (Segment.ofSeries .condition " AND " (c.conditions.map (·.write d)))
      ⟨c.head, [], none, [], {}⟩ = .ok ⟨c.head, c.joined d, none, [], {}⟩ := by
    rw [joined]
    cases hcs : c.conditions with
    | nil => rfl
    | cons x rest =>
      rw [hcs] at hconditions
      exact Segment.addAll_cons
        (Segment.addCut_condition (List.forall_mem_singleton.mp hconditions).firm) []
  have hgrouped : Segment.addAll d.placeholder c.groupSegments
      ⟨c.head, c.joined d, none, [], {}⟩ = .ok ⟨c.head, c.joined d, c.groupBy, [], {}⟩ := by
    rw [groupSegments] at hgroup ⊢
    cases hg : c.groupBy with
    | none => rfl
    | some g =>
      rw [hg] at hgroup
      exact Segment.addAll_cons
        (Segment.addCut_groupBy (List.forall_mem_singleton.mp hgroup).firm) []
  have hordered : Segment.addAll d.placeholder (Segment.ofSeries .orderBy ", " (c.writtenOrder d))
      ⟨c.head, c.joined d, c.groupBy, [], {}⟩ =
        .ok ⟨c.head, c.joined d, c.groupBy, (c.reopened d).orderBy, {}⟩ := by
    rw [reopened]
    cases hts : c.writtenOrder d with
    | nil => rfl
    | cons t rest =>
      rw [hts] at horder
      exact Segment.addAll_cons
        (Segment.addCut_orderBy (List.forall_mem_singleton.mp horder).firm) []
  rw [segments, Segment.addAll_append, Segment.addAll_append, Segment.addAll_append, hjoined]
  simp only [Except.bind, hgrouped, hordered]
  exact Segment.addAll_boundSegments d c.bounds rfl

/-- The SELECT of the clauses with other bounds, and with the text of WHERE rewritten by `f`. -/
def selectAs (f : Fragment → Fragment) (b : Bounds) (d : Dialect) (c : Clauses) : Fragment :=
  let text := Fragment.series "" " AND " (c.conditions.map (·.write d))
  c.head ++ (if c.conditions.isEmpty then .empty else ofText " WHERE " ++ f text) ++ c.writeGroup ++
    c.writeOrder ++ d.bounds b (!c.orderBy.isEmpty)

theorem select_eq_selectAs (d : Dialect) (c : Clauses) : c.select d = c.selectAs id c.bounds d := by
  have hconditions : c.writeConditions d = if c.conditions.isEmpty then .empty else
      ofText " WHERE " ++ Fragment.series "" " AND " (c.conditions.map (·.write d)) := by
    rw [writeConditions]
    cases c.conditions with
    | nil => rfl
    | cons x rest => exact Fragment.series_cons " WHERE " " AND " _ _
  rw [select, writeFiltered, hconditions]
  rfl

theorem writeConditions_reopened (d : Dialect) (c : Clauses) :
    (c.reopened d).writeConditions d = if c.conditions.isEmpty then .empty else
      ofText " WHERE " ++ .enclose (.series "" " AND " (c.conditions.map (·.write d))) := by
  rw [writeConditions, reopened, joined]
  cases c.conditions with
  | nil => rfl
  | cons x rest => exact Fragment.append_empty _

theorem select_reopened (d : Dialect) (c : Clauses) :
    (c.reopened d).select d = c.selectAs Fragment.enclose (d.respell c.bounds) d := by
  have horder : (c.reopened d).writeOrder ++
      d.bounds (d.respell c.bounds) (!(c.reopened d).orderBy.isEmpty) =
        c.writeOrder ++ d.bounds (d.respell c.bounds) (!c.orderBy.isEmpty) := by
    obtain ⟨head, conditions, groupBy, orderBy, limit, offset⟩ := c
    cases orderBy with
    | nil => cases d <;> cases limit <;> cases offset <;> rfl
    | cons t rest =>
      have hterms : writtenOrder d ⟨head, conditions, groupBy, t :: rest, limit, offset⟩ =
          t :: rest := if_neg (by simp)
      rw [reopened, hterms, if_neg (List.cons_ne_nil t rest)]
      rw [writeOrder, writeOrder, Fragment.series_cons " ORDER BY " ", " t rest]
      exact congrArg (· ++ _) (Fragment.append_empty _)
  have hgroup : (c.reopened d).writeGroup = c.writeGroup := rfl
  have hbounds : (c.reopened d).bounds = d.respell c.bounds := rfl
  have hhead : (c.reopened d).head = c.head := rfl
  rw [select, writeFiltered, writeConditions_reopened, hgroup, hbounds, hhead, selectAs,
    Fragment.append_assoc, horder, ← Fragment.append_assoc]

theorem params_count_reopened (d : Dialect) (c : Clauses) :
    ((c.reopened d).count d).params = (c.count d).params := by
  have hconditions : ((c.reopened d).writeConditions d).params = (c.writeConditions d).params := by
    rw [writeConditions_reopened, writeConditions]
    cases c.conditions with
    | nil => rfl
    | cons x rest =>
      rw [Fragment.params_series]
      simp [Fragment.enclose, Fragment.params_series]
  have hgroup : (c.reopened d).writeGroup = c.writeGroup := rfl
  have hhead : (c.reopened d).head = c.head := rfl
  simp only [count, writeFiltered, Fragment.params_append, hconditions, hgroup, hhead]

end Clauses

/-- The bounds of a statement that are spelled as numerals become parameters. -/
theorem Dialect.bounds_respell (d : Dialect) (b : Bounds) (ordered : Bool) :
    (d.bounds b ordered).BindsNumeral d.placeholder (d.bounds (d.respell b) ordered) := by
  obtain ⟨limit, offset⟩ := b
  cases d with
  | tsql =>
    rcases limit with _ | m <;> rcases offset with _ | n
    · exact .same _
    · exact .same _
    · let order := ofText (if ordered then "" else " ORDER BY (SELECT NULL)")
      let fetch := tsql.bound " FETCH NEXT " m ++ ofText " ROWS ONLY"
      have hnumeral : tsql.bounds ⟨some m, none⟩ ordered =
          order ++ (ofText " OFFSET " ++ ofText "0" ++ ofText " ROWS") ++ fetch := rfl
      have hbound : tsql.bounds ⟨some m, some 0⟩ ordered =
          order ++ (ofText " OFFSET " ++ Placeholder.question.bind (.int 0) ++ ofText " ROWS") ++
            fetch := rfl
      have hbind := Fragment.BindsNumeral.bind (p := .question) (order ++ ofText " OFFSET ")
        (ofText " ROWS" ++ fetch) "0" (n := 0) (by rfl)
      show Fragment.BindsNumeral .question _ (tsql.bounds ⟨some m, some 0⟩ ordered)
      rw [hnumeral, hbound]
      simpa only [Fragment.append_assoc] using hbind
    · exact .same _
  | postgres => exact .same _
  | sqlite =>
    rcases limit with _ | m <;> rcases offset with _ | n
    · exact .same _
    · exact .bind (ofText " LIMIT ") (sqlite.bound " OFFSET " n) "-1" (by rfl)
    · exact .same _
    · exact .same _

/-- How a query is related to the one that its own statement opens. -/
structure Query.ReopenedAs (q r : Query) : Prop where
  dialect : r.dialect = q.dialect
  bounds : r.clauses.bounds = q.dialect.respell q.clauses.bounds
  target : r.clauses.target = q.clauses.target
  counted : r.countStatement.params = q.countStatement.params
  written : q.select = q.clauses.selectAs id q.clauses.bounds q.dialect
  select : r.select =
    q.clauses.selectAs Fragment.enclose (q.dialect.respell q.clauses.bounds) q.dialect
  numerals (ordered : Bool) : (q.dialect.bounds q.clauses.bounds ordered).BindsNumeral
    q.dialect.placeholder (q.dialect.bounds (q.dialect.respell q.clauses.bounds) ordered)

/-- The statement of a query that a chain on a table leads to has a placeholder for each of its
parameters, and the clauses it is taken apart into make the query that it opens. -/
theorem Query.ofBaseWith_select {d : Dialect} {table : String} {q q' : Query}
    {ops : List Operation} (hq : Query.ofTable d table = .ok q) (h : q.chain ops = .ok q') :
    Query.ofBaseWith d q'.select.sql q'.select.params = .ok ⟨d, q'.clauses.reopened d⟩ := by
  have hsections := (ofTable_chain hq h (P := (·.Aligned d.placeholder)) fun f hf => hf.aligned).2
  have htotal := (Clauses.select_composed hsections).total
  obtain ⟨hdialect, name, hc⟩ := chain_onTable hq h
  subst hdialect
  have hlayout : q'.select =
      ofText (tableBase name) ++ Segment.layout (q'.clauses.segments q'.dialect) := by
    rw [select, Clauses.select_eq_layout, hc.head]
  have hkeywords := q'.clauses.keyword_segments q'.dialect
  have hparse : Clauses.parse q'.dialect.placeholder q'.select.sql q'.select.params =
      .ok (q'.clauses.reopened q'.dialect) := by
    have hnodup := hkeywords.nodup (by decide)
    have hsource := mt (hkeywords.mem (a := Keyword.source)) (by decide)
    rw [hlayout, ← hc.addAll_segments, hc.head]
    exact Segment.parse_layout name hc.legible_segments hnodup hsource
  have hfound : q'.dialect.placeholder.count q'.select.sql = q'.select.params.length := htotal
  simp only [ofBaseWith]
  rw [if_neg (not_not_intro hfound), hparse]
  rfl

/-- The statement of a query that a chain on a table leads to opens a query again. -/
theorem Query.reopen_select {d : Dialect} {table : String} {q q' : Query} {ops : List Operation}
    (hq : Query.ofTable d table = .ok q) (h : q.chain ops = .ok q') :
    ∃ r, Query.ofBaseWith d q'.select.sql q'.select.params = .ok r ∧ q'.ReopenedAs r := by
  obtain ⟨hdialect, -⟩ := chain_onTable hq h
  subst hdialect
  refine ⟨_, ofBaseWith_select hq h, ?_⟩
  exact ⟨rfl, rfl, rfl, Clauses.params_count_reopened _ _, Clauses.select_eq_selectAs _ _,
    Clauses.select_reopened _ _, fun ordered => Dialect.bounds_respell _ _ ordered⟩

/-- A chain with names that are keywords, and with a limit to which T-SQL adds an order and an
offset. -/
theorem Query.reopen_select_of_keywords :
    ∃ q q' r, Query.ofTable .tsql "order" = .ok q ∧
      q.chain [.filter [("group__in", .list [.int 1, .int 2])], .exclude [("where", .text "from")],
        .limit 4] = .ok q' ∧
      Query.ofBaseWith .tsql q'.select.sql q'.select.params = .ok r ∧ q'.ReopenedAs r := by
  have hok : ((Query.ofTable .tsql "order").bind
      (·.chain [.filter [("group__in", .list [.int 1, .int 2])],
        .exclude [("where", .text "from")], .limit 4])).isOk = true := by
    decide +kernel
  obtain ⟨q', hq'⟩ := Except.exists_of_isOk hok
  obtain ⟨q, hq, hchain⟩ := Except.bind_eq_ok.mp hq'
  obtain ⟨r, hr, hrelated⟩ := reopen_select hq hchain
  exact ⟨q, q', r, hq, hchain, hr, hrelated⟩

end QueryChain
