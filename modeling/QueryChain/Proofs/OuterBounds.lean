import QueryChain.Proofs.Landing
import QueryChain.Proofs.Paging
import QueryChain.Proofs.RowBounds

/-!
The words that bound the rows of an assembled SELECT. What chained calls write holds none, so if
nothing that is stored of the base bounds rows, the SELECT does so only behind all its clauses.
-/

namespace QueryChain

open Fragment (WordedIn ofText)
open Text

/-! ### Sections -/

theorem Fragment.WordedIn.rowBounds_eq_nil {p : Placeholder} {f : Fragment}
    (h : WordedIn sectionWords p f) : rowBounds f.sql.toList = [] := by
  obtain ⟨-, hlacks⟩ := h.lacksWords boundWords_opening (by decide)
  exact Context.standing_eq_nil_of_lacks (hlacks 0 {} ⟨rfl, rfl, rfl⟩)

theorem rowBounds_enclosed {f : Fragment} (h : rowBounds f.sql.toList = []) :
    rowBounds (ofText "(" ++ f ++ ofText ")").sql.toList = [] := by
  have htext : (ofText "(" ++ f ++ ofText ")").sql.toList = '(' :: (f.sql.toList ++ [')']) := by
    simp
  have hopen : ({} : Context).next '(' = { depth := 1 } := rfl
  have hparen : Keyword.anyAtFront boundWords ('(' :: (f.sql.toList ++ [')'])) = false :=
    Keyword.anyAtFront_of_startsWord boundWords_capital rfl
  have hclose : ∀ c ∈ [')'], Keyword.isWordChar c = false := by decide
  rw [htext, rowBounds, Context.standing_cons_of_not (.inr hparen), hopen,
    Context.standing_append boundWords_capital (.inl rfl), Context.standing_at_depth h,
    Context.standing_of_wordless boundWords_capital _ hclose]
  rfl

/-- What is stored of a base is written without words that bound rows. -/
theorem Clauses.Unbounded.everyTail {c : Clauses} (h : c.Unbounded) (d : Dialect) :
    c.EveryTail (fun f => rowBounds f.sql.toList = []) d := by
  refine ⟨fun x hx => ?_, h.groupBy, h.orderBy⟩
  obtain ⟨f, rfl, hf⟩ := h.conditions x hx
  exact rowBounds_enclosed hf

/-! ### Pieces in a row -/

theorem flat_of_mem_sectionLeads {lead : String} (h : lead ∈ sectionLeads) :
    ∀ c ∈ lead.toList, c ≠ '(' ∧ c ≠ ')' := by
  have hall : ∀ lead ∈ sectionLeads, ∀ c ∈ lead.toList, c ≠ '(' ∧ c ≠ ')' := by decide
  exact hall lead h

/-- Behind the words between sections only the depth of parentheses is left of what was before. -/
theorem Context.after_sectionLead_at_depth {lead : String} (h : lead ∈ sectionLeads) {x : Context}
    (hquote : x.quote = none) (hcomment : x.comment = false) :
    x.after lead.toList = { depth := x.depth } := by
  have hlevel : ({ x with depth := 0 } : Context).AtLevel 0 := ⟨hquote, hcomment, rfl⟩
  have hdepth := after_depth (flat_of_mem_sectionLeads h) { x with depth := 0 } x.depth
  rw [after_sectionLead h hlevel] at hdepth
  exact hdepth

theorem standing_sectionLead {lead : String} (h : lead ∈ sectionLeads) {x : Context}
    (hquote : x.quote = none) (hcomment : x.comment = false) :
    x.standing boundWords lead.toList = [] := by
  have hzero : ∀ lead ∈ sectionLeads, ∀ dash inWord : Bool,
      Context.Lacks boundWords ⟨none, false, dash, 0, inWord⟩ lead.toList := by
    decide
  have hlacks := LacksWords.ofFlat (flat_of_mem_sectionLeads h) (hzero lead h)
  exact Context.standing_eq_nil_of_lacks (hlacks x.depth x ⟨hquote, hcomment, rfl⟩)

namespace Piece

/-- Whether a piece is led in by the words between sections, closes its quotes and bounds no
rows. -/
structure Boundless (x : Piece) : Prop where
  lead : x.lead ∈ sectionLeads
  quote : (({} : Context).after x.body.sql.toList).quote = none
  bare : rowBounds x.body.sql.toList = []

theorem startsWord_join {front : List Piece} (h : ∀ x ∈ front, x.lead ∈ sectionLeads) :
    Keyword.startsWord (join front).sql.toList = false := by
  have hstarts : ∀ lead ∈ sectionLeads,
      lead.toList ≠ [] ∧ Keyword.startsWord lead.toList = false := by
    decide
  cases front with
  | nil => rfl
  | cons x front =>
    obtain ⟨hne, hword⟩ := hstarts x.lead (h x List.mem_cons_self)
    obtain ⟨c, rest, hlead⟩ := List.exists_cons_of_ne_nil hne
    rw [hlead] at hword
    rw [join, whole, Fragment.sql_append, Fragment.sql_append, Fragment.sql_ofText,
      String.toList_append, String.toList_append, hlead]
    exact hword

/-- Pieces that bound no rows do so together, at whatever depth, if only the last one may end in a
comment. -/
theorem standing_join {front : List Piece} (h : ∀ x ∈ front, x.Boundless)
    (hopen : ∀ x ∈ front.dropLast, x.EndsOpen) {y : Context} (hquote : y.quote = none)
    (hcomment : y.comment = false) : y.standing boundWords (join front).sql.toList = [] := by
  induction front generalizing y with
  | nil => rfl
  | cons x front ih =>
    obtain ⟨hx, hfront⟩ := List.forall_mem_cons.mp h
    have hlead := Context.after_sectionLead_at_depth hx.lead hquote hcomment
    have htext : (join (x :: front)).sql.toList =
        x.lead.toList ++ (x.body.sql.toList ++ (join front).sql.toList) := by
      simp [join, whole]
    have hbehind : ((y.after x.lead.toList).after x.body.sql.toList).standing boundWords
        (join front).sql.toList = [] := by
      cases front with
      | nil => rfl
      | cons z front =>
        have hends : x.EndsOpen := hopen x (by simp)
        obtain ⟨hquote', hcomment'⟩ := Context.after_at_depth x.body.sql.toList y.depth
        rw [hlead]
        exact ih hfront (fun w hw => hopen w (by simp [hw])) (hquote'.trans hx.quote)
          (hcomment'.trans hends)
    have hborder := startsWord_join fun z hz => (hfront z hz).lead
    rw [htext, Context.standing_append boundWords_capital (.inr (by rw [hlead])),
      standing_sectionLead hx.lead hquote hcomment,
      Context.standing_append boundWords_capital (.inl hborder), hbehind, hlead,
      Context.standing_at_depth hx.bare]
    rfl

end Piece

/-! ### The SELECT of a query -/

theorem Dialect.startsWord_bounds (d : Dialect) (b : Bounds) (ordered : Bool) :
    Keyword.startsWord (d.bounds b ordered).sql.toList = false := by
  have hspace : (!Keyword.isWordChar ' ') = true := by decide
  have hstart := Fragment.StartsIn.bounds (p := (!Keyword.isWordChar ·)) hspace d b ordered
  rw [Fragment.StartsIn] at hstart
  generalize (d.bounds b ordered).sql.toList = cs at hstart
  cases cs with
  | nil => rfl
  | cons c cs =>
    show Keyword.isWordChar c = false
    simpa using hstart c rfl

namespace Clauses

variable {d : Dialect} {c : Clauses}

theorem filtered_eq_join (d : Dialect) (c : Clauses) :
    c.writeFiltered d ++ c.writeOrder = c.head ++ Piece.join (c.sectionPieces d) := by
  rw [sectionPieces, Piece.join_append, Piece.join_append, join_conditionPieces, join_groupPieces,
    orderPieces, Piece.join_series, writeFiltered, writeOrder]
  simp only [Fragment.append_assoc]

/-- Of the pieces of a SELECT before its bounds only the last one may be the last of all. -/
theorem mem_dropLast_selectPieces {x : Piece}
    (hx : x ∈ (⟨"", c.head⟩ :: c.sectionPieces d).dropLast) : x ∈ (c.selectPieces d).dropLast := by
  have hpieces : c.selectPieces d = (⟨"", c.head⟩ :: c.sectionPieces d) ++ c.boundsPieces d := rfl
  rw [hpieces, List.dropLast_append]
  split
  · exact hx
  · exact List.mem_append_left _ (List.dropLast_subset _ hx)

/-- If only the head and the bounds have words that bound rows, the SELECT has no others. -/
theorem rowBounds_select
    (hquotes : c.EverySection (fun f => (({} : Context).after f.sql.toList).quote = none) d)
    (htail : c.EveryTail (fun f => rowBounds f.sql.toList = []) d)
    (hopen : ∀ x ∈ (c.selectPieces d).dropLast, x.EndsOpen) :
    ∀ n ∈ rowBounds (c.select d).sql.toList, n ∈ rowBounds c.head.sql.toList ∨
      (c.writeFiltered d ++ c.writeOrder).sql.toList.length ≤ n := by
  have hsections : ∀ x ∈ c.sectionPieces d, x.Boundless := fun x hx =>
    ⟨(mem_sectionPieces htail hx).1, (mem_sectionPieces hquotes.tail hx).2,
      (mem_sectionPieces htail hx).2⟩
  have hbehind : (({} : Context).after c.head.sql.toList).standing boundWords
      (Piece.join (c.sectionPieces d)).sql.toList = [] := by
    have hfront (x : Piece) (hx : x ∈ (⟨"", c.head⟩ :: c.sectionPieces d).dropLast) : x.EndsOpen :=
      hopen x (mem_dropLast_selectPieces hx)
    generalize c.sectionPieces d = sections at hsections hfront ⊢
    cases sections with
    | nil => rfl
    | cons x sections =>
      have hhead : Piece.EndsOpen ⟨"", c.head⟩ := hfront _ (by simp)
      exact Piece.standing_join hsections (fun z hz => hfront z (by simp [hz])) hquotes.head hhead
  have hborder := Piece.startsWord_join fun x hx => (hsections x hx).lead
  have hselect : (c.select d).sql.toList = (c.writeFiltered d ++ c.writeOrder).sql.toList ++
      (d.bounds c.bounds (!c.orderBy.isEmpty)).sql.toList :=
    String.toList_append
  intro n hn
  rw [hselect, rowBounds,
    Context.standing_append boundWords_capital (.inl (d.startsWord_bounds _ _)),
    List.mem_append] at hn
  rcases hn with hn | hn
  · rw [filtered_eq_join, Fragment.sql_append, String.toList_append,
      Context.standing_append boundWords_capital (.inl hborder), hbehind, List.map_nil,
      List.append_nil] at hn
    exact .inl hn
  · obtain ⟨m, -, rfl⟩ := List.mem_map.mp hn
    exact .inr (Nat.le_add_right _ m)

end Clauses

/-- Of an accepted base whose quotes are closed and whose blanks belong to no word, nothing that is
stored bounds rows if and only if every word behind its first FROM that does stands in its LIMIT
clause or its OFFSET clause. A SELECT that is chained on such a base bounds its rows only behind
all its clauses, if no piece of it but the last ends in a comment. -/
theorem Query.rowBounds_of_chain {d : Dialect} {base : String} {q : Query}
    (hq : Query.ofBase d base = .ok q)
    (hquote : (({} : Context).after base.toList).quote = none)
    (hblank : ∀ c ∈ base.toList, isBlank c = true → Keyword.isWordChar c = false) :
    (q.clauses.Unbounded ↔ ∀ n ∈ rowBounds (trimStatement base.toList),
      Mark.fromEnd (Mark.scan (trimStatement base.toList)) ≤ n →
        (clauseAt? (trimStatement base.toList) n).any Keyword.isLifted = true) ∧
    (q.clauses.Unbounded → ∀ ops q', q.chain ops = .ok q' →
      (∀ x ∈ (q'.clauses.selectPieces d).dropLast, x.EndsOpen) →
        ∀ n ∈ rowBounds q'.select.sql.toList,
          Mark.fromEnd (Mark.scan q'.clauses.head.sql.toList) ≤ n →
            q'.unbounded.sql.toList.length ≤ n) := by
  obtain ⟨c, hc, rfl⟩ := Except.map_eq_ok.mp hq
  refine ⟨Clauses.parse_unbounded_iff hc hblank, ?_⟩
  intro hunbounded ops q' hchain hopen n hn hfrom
  obtain rfl : q'.dialect = d := chain_dialect hchain
  have hquotes := (Clauses.parse_unquoted (d := q'.dialect) hc hquote).chain
    (fun f hf => hf.sealed.quote) hchain
  have htail := (hunbounded.everyTail q'.dialect).chain (fun f hf => hf.rowBounds_eq_nil) hchain
  rcases Clauses.rowBounds_select hquotes htail hopen n hn with hhead | hbehind
  · rw [chain_head hchain] at hhead hfrom
    exact absurd hfrom (Nat.not_le.mpr (hunbounded.head n hhead))
  · exact hbehind

/-- A limit in a subquery and a word in quotes bound no rows of the statement; its own bounds are
lifted, and the chained limit takes the place of one of them. -/
theorem Query.rowBounds_of_subquery :
    ∃ q q', Query.ofBase .tsql ("SELECT (SELECT a FROM u LIMIT 1) FROM t " ++
        "WHERE b = 'FETCH' OFFSET 5 ROWS FETCH NEXT 3 ROWS ONLY") = .ok q ∧
      q.chain [.filter [("limit__gt", .int 1)], .limit 2] = .ok q' ∧ q.clauses.Unbounded ∧
      (rowBounds q'.select.sql.toList).length = 2 ∧
      ∀ n ∈ rowBounds q'.select.sql.toList,
        Mark.fromEnd (Mark.scan q'.clauses.head.sql.toList) ≤ n →
          q'.unbounded.sql.toList.length ≤ n := by
  have hrun : ((Query.ofBase .tsql ("SELECT (SELECT a FROM u LIMIT 1) FROM t " ++
      "WHERE b = 'FETCH' OFFSET 5 ROWS FETCH NEXT 3 ROWS ONLY")).bind
      (·.chain [.filter [("limit__gt", .int 1)], .limit 2])).map (fun q' =>
        decide ((∀ x ∈ (q'.clauses.selectPieces .tsql).dropLast, x.EndsOpen) ∧
          (rowBounds q'.select.sql.toList).length = 2)) = .ok true :=
    Except.eq_ok_of_toOption (by decide +kernel)
  obtain ⟨q', hq', hfacts⟩ := Except.map_eq_ok.mp hrun
  obtain ⟨q, hq, hchain⟩ := Except.bind_eq_ok.mp hq'
  obtain ⟨hopen, hlength⟩ := of_decide_eq_true hfacts
  obtain ⟨hiff, hselect⟩ := rowBounds_of_chain hq (by decide +kernel) (by decide +kernel)
  have hunbounded : q.clauses.Unbounded := hiff.mpr (by decide +kernel)
  exact ⟨q, q', hq, hchain, hunbounded, hlength, hselect hunbounded _ q' hchain hopen⟩

/-- FETCH opens no clause, so behind a term of ORDER BY it belongs to that term: the base is
accepted, its bound is stored with the order, and a chained limit stands beside it. -/
theorem Query.rowBounds_of_fetch :
    ∃ q, Query.ofBase .postgres "SELECT * FROM t ORDER BY a FETCH FIRST 5 ROWS ONLY" = .ok q ∧
      (({} : Context).after "SELECT * FROM t ORDER BY a FETCH FIRST 5 ROWS ONLY".toList).quote =
        none ∧
      q.clauses.bounds = {} ∧
      ¬q.clauses.Unbounded ∧
      (q.limit 10).select.sql = "SELECT * FROM t ORDER BY a FETCH FIRST 5 ROWS ONLY LIMIT %s" ∧
      ∃ n ∈ rowBounds q.select.sql.toList,
        Mark.fromEnd (Mark.scan q.clauses.head.sql.toList) ≤ n ∧
          n < q.unbounded.sql.toList.length := by
  have hrun : (Query.ofBase .postgres "SELECT * FROM t ORDER BY a FETCH FIRST 5 ROWS ONLY").map
      (fun q => decide (q.clauses.bounds = {} ∧
        (∃ t ∈ q.clauses.orderBy, rowBounds t.sql.toList ≠ []) ∧
        (q.limit 10).select.sql = "SELECT * FROM t ORDER BY a FETCH FIRST 5 ROWS ONLY LIMIT %s" ∧
        ∃ n ∈ rowBounds q.select.sql.toList,
          Mark.fromEnd (Mark.scan q.clauses.head.sql.toList) ≤ n ∧
            n < q.unbounded.sql.toList.length)) = .ok true :=
    Except.eq_ok_of_toOption (by decide +kernel)
  obtain ⟨q, hq, hfacts⟩ := Except.map_eq_ok.mp hrun
  obtain ⟨hbounds, ⟨t, ht, hterm⟩, hlimit, hcarried⟩ := of_decide_eq_true hfacts
  exact ⟨q, hq, by decide +kernel, hbounds, fun hunbounded => hterm (hunbounded.orderBy t ht),
    hlimit, hcarried⟩

end QueryChain
