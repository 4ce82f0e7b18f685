import QueryChain.Proofs.Endings
import QueryChain.Proofs.Pieces

/-!
Where the clauses of a SELECT stand. Each piece lands at the top level, and the scanner finds the
keyword that leads it in, unless a piece before it leaves a line comment open.
-/

namespace QueryChain

open Fragment (Worded ofText)

/-! ### Words between sections -/

/-- Behind such words a section is read as if it stood alone. -/
theorem Context.after_sectionLead {lead : String} (h : lead ∈ sectionLeads) {x : Context}
    (hx : x.AtLevel 0) : x.after lead.toList = {} := by
  have hall : ∀ lead ∈ sectionLeads, ∀ dash inWord : Bool,
      Context.after ⟨none, false, dash, 0, inWord⟩ lead.toList = {} := by
    decide
  obtain ⟨quote, comment, dash, depth, inWord⟩ := x
  obtain ⟨rfl, rfl, rfl⟩ := hx
  exact hall lead h dash inWord

/-- A keyword behind a text that ends at the top level is found. -/
theorem Mark.mem_scan_of_lead {front tail : List Char} (h : (({} : Context).after front).AtLevel 0)
    (k : Keyword) : ⟨k, front.length + 1, front.length + 1 + k.text.length⟩ ∈
      Mark.scan (front ++ (' ' :: k.text ++ [' ']) ++ tail) := by
  have htop : (({} : Context).after (front ++ [' '])).isTop = true := by
    rw [Context.after_append]
    generalize ({} : Context).after front = x at h
    obtain ⟨quote, comment, dash, depth, inWord⟩ := x
    obtain ⟨rfl, rfl, rfl⟩ := h
    rfl
  have htext : front ++ (' ' :: k.text ++ [' ']) ++ tail =
      front ++ [' '] ++ (k.text ++ ' ' :: tail) := by
    simp
  have hfront : Keyword.atFront? (k.text ++ ' ' :: tail) = some (k, ' ' :: tail) :=
    Keyword.atFront?_text k rfl
  rw [htext, scan]
  apply mem_scanFrom_append
  rw [scanFrom_keyword htop hfront k.text_spelled, List.length_append, Nat.zero_add]
  exact List.mem_cons_self

/-! ### Pieces in a row -/

namespace Piece

/-- Whether a piece is led in by the words between sections, and closes what it opens. -/
structure Landable (x : Piece) : Prop where
  lead : x.lead ∈ sectionLeads
  body : x.body.Sealed

theorem Landable.ofSection {x : Piece} (h : x.lead ∈ sectionLeads ∧ x.body.Sealed) : x.Landable :=
  ⟨h.1, h.2⟩

def EndsOpen (x : Piece) : Prop :=
  (({} : Context).after x.body.sql.toList).comment = false

instance (x : Piece) : Decidable x.EndsOpen :=
  inferInstanceAs (Decidable (_ = false))

theorem Landable.after {x : Piece} (h : x.Landable) {y : Context} (hy : y.AtLevel 0) :
    y.after x.whole.sql.toList = ({} : Context).after x.body.sql.toList := by
  rw [whole, Fragment.sql_append, Fragment.sql_ofText, String.toList_append, Context.after_append,
    Context.after_sectionLead h.lead hy]

theorem EndsOpen.atLevel {x : Piece} (h : x.EndsOpen) (hbody : x.body.Sealed) :
    (({} : Context).after x.body.sql.toList).AtLevel 0 :=
  ⟨hbody.quote, h, hbody.depth h⟩

/-- Behind pieces that end outside comments the next one begins at the top level. -/
theorem atLevel_of_endsOpen {y : Context} (hy : y.AtLevel 0) {front : List Piece}
    (h : ∀ x ∈ front, x.Landable ∧ x.EndsOpen) :
    (y.after (join front).sql.toList).AtLevel 0 := by
  induction front generalizing y with
  | nil => exact hy
  | cons x front ih =>
    obtain ⟨⟨hx, hopen⟩, hrest⟩ := List.forall_mem_cons.mp h
    rw [join, Fragment.sql_append, String.toList_append, Context.after_append, hx.after hy]
    exact ih (hopen.atLevel hx.body) hrest

end Piece

/-! ### The SELECT of a query -/

namespace Clauses

variable {d : Dialect} {c : Clauses}

/-- Only the bounds may be led in otherwise, and they come last. -/
theorem landable_of_mem_dropLast (h : c.EverySection Fragment.Sealed d) :
    ∀ x ∈ (c.tailPieces d).dropLast, x.Landable := by
  have hsections : ∀ x ∈ c.conditionPieces d ++ c.groupPieces ++ c.orderPieces, x.Landable := by
    simp only [List.forall_mem_append]
    refine ⟨⟨?_, ?_⟩, ?_⟩
    · exact fun x hx => .ofSection (mem_conditionPieces h hx)
    · exact fun x hx => .ofSection (mem_groupPieces h hx)
    · exact fun x hx => .ofSection (mem_orderPieces h hx)
  intro x hx
  rw [tailPieces, boundsPieces] at hx
  split at hx
  · rw [List.append_nil] at hx
    exact hsections x (List.dropLast_subset _ hx)
  · rw [List.dropLast_concat] at hx
    exact hsections x hx

end Clauses

theorem exists_of_mem_dropLast {α : Type} {x : α} {xs : List α} (h : x ∈ xs.dropLast) :
    ∃ front y rest, xs = front ++ x :: y :: rest := by
  induction xs with
  | nil => cases h
  | cons a xs ih =>
    cases xs with
    | nil => cases h
    | cons b xs =>
      rw [List.dropLast_cons_cons] at h
      rcases List.mem_cons.mp h with rfl | h
      · exact ⟨[], b, xs, rfl⟩
      · obtain ⟨front, y, rest, hxs⟩ := ih h
        exact ⟨a :: front, y, rest, congrArg (a :: ·) hxs⟩

namespace Clauses

variable {d : Dialect} {c : Clauses}

/-- Whether every piece of a SELECT behind its head begins at the top level, every condition ends
there, and the scanner finds the keyword of every clause that is there. -/
structure Lands (d : Dialect) (c : Clauses) : Prop where
  pieces : ∀ front x rest, c.tailPieces d = front ++ x :: rest →
    (({} : Context).after (c.head ++ Piece.join front).sql.toList).AtLevel 0
  closes : ∀ front x rest, c.conditionPieces d = front ++ x :: rest →
    (({} : Context).after (c.head ++ Piece.join (front ++ [x])).sql.toList).AtLevel 0
  condition : c.conditions ≠ [] → ∃ m ∈ Mark.scan (c.select d).sql.toList,
    m.keyword = .condition ∧ m.start = c.head.sql.toList.length + 1
  groupBy : c.groupBy ≠ none → ∃ m ∈ Mark.scan (c.select d).sql.toList,
    m.keyword = .groupBy ∧ m.start = (c.head ++ c.writeConditions d).sql.toList.length + 1
  orderBy : c.orderBy ≠ [] → ∃ m ∈ Mark.scan (c.select d).sql.toList,
    m.keyword = .orderBy ∧ m.start = (c.writeFiltered d).sql.toList.length + 1

theorem mem_scan_of_piece {front rest : List Piece} {lead : String} {body : Fragment} {k : Keyword}
    (hpieces : c.tailPieces d = front ++ ⟨lead, body⟩ :: rest)
    (hlead : lead.toList = ' ' :: k.text ++ [' '])
    (htop : (({} : Context).after (c.head ++ Piece.join front).sql.toList).AtLevel 0) :
    ∃ m ∈ Mark.scan (c.select d).sql.toList,
      m.keyword = k ∧ m.start = (c.head ++ Piece.join front).sql.toList.length + 1 := by
  have htext : (c.select d).sql.toList = (c.head ++ Piece.join front).sql.toList ++
      (' ' :: k.text ++ [' ']) ++ (body ++ Piece.join rest).sql.toList := by
    rw [select_eq_join, selectPieces, Piece.join_head, hpieces, Piece.join_append, Piece.join,
      Piece.whole, ← hlead]
    simp only [Fragment.sql_append, Fragment.sql_ofText, String.toList_append, List.append_assoc]
  rw [htext]
  exact ⟨_, Mark.mem_scan_of_lead htop k, rfl, rfl⟩

/-- Pieces that begin at the top level are found by their keywords. -/
theorem lands_of_pieces (h : ∀ front x rest, c.tailPieces d = front ++ x :: rest →
    (({} : Context).after (c.head ++ Piece.join front).sql.toList).AtLevel 0)
    (hcloses : ∀ front x rest, c.conditionPieces d = front ++ x :: rest →
      (({} : Context).after (c.head ++ Piece.join (front ++ [x])).sql.toList).AtLevel 0) :
    c.Lands d := by
  -- Every clause is found by the words of its first piece.
  refine ⟨h, hcloses, ?_, ?_, ?_⟩
  · intro hne
    obtain ⟨x, xs, hconditions⟩ := List.exists_cons_of_ne_nil hne
    have hpieces : c.tailPieces d = [] ++ ⟨" WHERE ", x.write d⟩ ::
        (Piece.series " AND " " AND " (xs.map (·.write d)) ++ c.groupPieces ++ c.orderPieces ++
          c.boundsPieces d) := by
      rw [tailPieces, conditionPieces, hconditions]
      rfl
    have hmark := mem_scan_of_piece (k := .condition) hpieces rfl (h _ _ _ hpieces)
    rwa [Piece.join, Fragment.append_empty] at hmark
  · intro hne
    obtain ⟨group, hgroup⟩ := Option.ne_none_iff_exists'.mp hne
    have hpieces : c.tailPieces d = c.conditionPieces d ++ ⟨" GROUP BY ", group⟩ ::
        (c.orderPieces ++ c.boundsPieces d) := by
      simp [tailPieces, groupPieces, hgroup]
    have hmark := mem_scan_of_piece (k := .groupBy) hpieces rfl (h _ _ _ hpieces)
    rwa [join_conditionPieces] at hmark
  · intro hne
    obtain ⟨t, ts, horder⟩ := List.exists_cons_of_ne_nil hne
    have hpieces : c.tailPieces d = (c.conditionPieces d ++ c.groupPieces) ++
        ⟨" ORDER BY ", t⟩ :: (Piece.series ", " ", " ts ++ c.boundsPieces d) := by
      simp [tailPieces, orderPieces, horder, Piece.series]
    have hmark := mem_scan_of_piece (k := .orderBy) hpieces rfl (h _ _ _ hpieces)
    rwa [Piece.join_append, join_conditionPieces, join_groupPieces, ← Fragment.append_assoc]
      at hmark

/-- A piece that is followed at the top level ends outside comments. -/
theorem Lands.endsOpen_of_next (hlands : c.Lands d) {front rest : List Piece} {x : Piece}
    (hx : x.Landable) (hpieces : c.tailPieces d = front ++ x :: rest)
    (hnext : (({} : Context).after
      (c.head ++ Piece.join (front ++ [x])).sql.toList).AtLevel 0) : x.EndsOpen := by
  have htop := hlands.pieces front x rest hpieces
  rw [Piece.join_append, Piece.join_singleton, ← Fragment.append_assoc, Fragment.sql_append,
    String.toList_append, Context.after_append, hx.after htop] at hnext
  exact hnext.comment

/-- Of clauses that land, no piece but the last ends in a comment. -/
theorem Lands.endsOpen_of_mem_dropLast (hlands : c.Lands d)
    (h : c.EverySection Fragment.Sealed d) : ∀ x ∈ (c.selectPieces d).dropLast, x.EndsOpen := by
  intro x hx
  obtain ⟨front, y, rest, hpieces⟩ := exists_of_mem_dropLast hx
  cases front with
  | nil =>
    obtain ⟨rfl, htail⟩ := List.cons.inj hpieces
    have htop := hlands.pieces [] y rest htail
    rw [Piece.join, Fragment.append_empty] at htop
    exact htop.comment
  | cons first front =>
    have htail : c.tailPieces d = front ++ x :: y :: rest := (List.cons.inj hpieces).2
    have hx : x.Landable := by
      apply landable_of_mem_dropLast h
      rw [htail, List.dropLast_append_cons, List.dropLast_cons_cons]
      simp
    have hnext : c.tailPieces d = (front ++ [x]) ++ y :: rest := by
      rw [htail, List.append_assoc]
      rfl
    exact hlands.endsOpen_of_next hx htail (hlands.pieces (front ++ [x]) y rest hnext)

/-- Nor does any condition, not even at the end of the statement. -/
theorem Lands.endsOpen_of_mem_conditionPieces (hlands : c.Lands d)
    (h : c.EverySection Fragment.Sealed d) : ∀ x ∈ c.conditionPieces d, x.EndsOpen := by
  intro x hx
  obtain ⟨front, rest, hpieces⟩ := List.append_of_mem hx
  have htail : c.tailPieces d =
      front ++ x :: (rest ++ (c.groupPieces ++ (c.orderPieces ++ c.boundsPieces d))) := by
    rw [tailPieces, hpieces]
    simp only [List.append_assoc, List.cons_append]
  exact hlands.endsOpen_of_next (.ofSection (mem_conditionPieces h hx)) htail
    (hlands.closes front x rest hpieces)

theorem lands_of_endsOpen (h : c.EverySection Fragment.Sealed d)
    (hopen : ∀ x ∈ (c.selectPieces d).dropLast, x.EndsOpen)
    (hconditions : ∀ x ∈ c.conditionPieces d, x.EndsOpen) : c.Lands d := by
  -- Only a statement of nothing but the head may end in a comment there.
  have hfront {front : List Piece} (hhead : Piece.EndsOpen ⟨"", c.head⟩)
      (hfront : ∀ x ∈ front, x.Landable ∧ x.EndsOpen) :
      (({} : Context).after (c.head ++ Piece.join front).sql.toList).AtLevel 0 := by
    rw [Fragment.sql_append, String.toList_append, Context.after_append]
    exact Piece.atLevel_of_endsOpen (hhead.atLevel h.head) hfront
  apply lands_of_pieces
  · intro front x rest htail
    rw [selectPieces, htail, ← List.cons_append, List.dropLast_append_cons,
      List.forall_mem_append, List.forall_mem_cons] at hopen
    obtain ⟨⟨hhead, hbefore⟩, -⟩ := hopen
    apply hfront hhead
    intro z hz
    refine ⟨landable_of_mem_dropLast h z ?_, hbefore z hz⟩
    rw [htail, List.dropLast_append_cons]
    exact List.mem_append_left _ hz
  · intro front x rest hpieces
    have hhead : Piece.EndsOpen ⟨"", c.head⟩ := by
      apply hopen
      rw [selectPieces, tailPieces, hpieces]
      simp [List.dropLast]
    apply hfront hhead
    intro z hz
    have hmem : z ∈ c.conditionPieces d := by
      have hsplit : front ++ x :: rest = (front ++ [x]) ++ rest := by simp
      rw [hpieces, hsplit]
      exact List.mem_append_left _ hz
    exact ⟨.ofSection (mem_conditionPieces h hmem), hconditions z hmem⟩

/-- The clauses of a SELECT land exactly if no piece but the last ends in a comment, and of the
conditions not even the last. -/
theorem lands_iff (h : c.EverySection Fragment.Sealed d) :
    c.Lands d ↔ ∀ x ∈ (c.selectPieces d).dropLast ++ c.conditionPieces d, x.EndsOpen := by
  rw [List.forall_mem_append]
  constructor
  · exact fun hlands =>
      ⟨hlands.endsOpen_of_mem_dropLast h, hlands.endsOpen_of_mem_conditionPieces h⟩
  · exact fun hopen => lands_of_endsOpen h hopen.1 hopen.2

end Clauses

/-! ### Chains on a base -/

/-- On a base that closes its quotes and parentheses, the clauses of a chained SELECT land exactly
if no piece but the last, and no condition, ends in a line comment. -/
theorem Query.chain_lands_iff {d : Dialect} {base : String} {q q' : Query} {ops : List Operation}
    (hq : Query.ofBase d base = .ok q)
    (hend : (({} : Context).after base.toList).Closed) (h : q.chain ops = .ok q') :
    q'.clauses.Lands d ↔
      ∀ x ∈ (q'.clauses.selectPieces d).dropLast ++ q'.clauses.conditionPieces d, x.EndsOpen := by
  obtain ⟨c, hc, rfl⟩ := Except.map_eq_ok.mp hq
  have hsections : c.EverySection Fragment.Sealed d := Clauses.parse_sealed hc hend
  exact Clauses.lands_iff (hsections.chain (fun f hf => hf.sealed) h)

/-- A comment within the head is no obstacle. -/
theorem Query.chain_lands_behind_comment :
    ∃ q q', Query.ofBase .sqlite "SELECT a, -- first\n b FROM t ORDER BY b" = .ok q ∧
      q.chain [.filter [("a", .int 1)], .limit 5] = .ok q' ∧ q'.clauses.Lands .sqlite := by
  have hopen : ((Query.ofBase .sqlite "SELECT a, -- first\n b FROM t ORDER BY b").bind
      (·.chain [.filter [("a", .int 1)], .limit 5])).map (fun q' =>
        decide (∀ x ∈ (q'.clauses.selectPieces .sqlite).dropLast ++
          q'.clauses.conditionPieces .sqlite, x.EndsOpen)) = .ok true :=
    Except.eq_ok_of_toOption (by decide +kernel)
  obtain ⟨q', hq', hpieces⟩ := Except.map_eq_ok.mp hopen
  obtain ⟨q, hq, hchain⟩ := Except.bind_eq_ok.mp hq'
  have hend : (({} : Context).after "SELECT a, -- first\n b FROM t ORDER BY b".toList).Closed := by
    constructor <;> decide +kernel
  exact ⟨q, q', hq, hchain, (chain_lands_iff hq hend hchain).mpr (of_decide_eq_true hpieces)⟩

/-- A comment that ends the head swallows the conditions, those of the base and those of the chain,
though a line feed ends it in the base. -/
theorem Query.condition_lost_in_comment :
    ∃ q q', Query.ofBase .sqlite "SELECT * FROM t -- note\nWHERE b = 1" = .ok q ∧
      (({} : Context).after "SELECT * FROM t -- note\nWHERE b = 1".toList).AtLevel 0 ∧
      q.chain [.filter [("a", .int 1)]] = .ok q' ∧
      q'.clauses.conditions ≠ [] ∧
      ∀ m ∈ Mark.scan q'.select.sql.toList, m.keyword ≠ .condition := by
  have hlost : ((Query.ofBase .sqlite "SELECT * FROM t -- note\nWHERE b = 1").bind
      (·.chain [.filter [("a", .int 1)]])).map (fun q' =>
        decide (q'.clauses.conditions.length = 2 ∧
          Mark.scan q'.select.sql.toList = [⟨.source, 9, 13⟩])) = .ok true :=
    Except.eq_ok_of_toOption (by decide +kernel)
  obtain ⟨q', hq', hscan⟩ := Except.map_eq_ok.mp hlost
  obtain ⟨q, hq, hchain⟩ := Except.bind_eq_ok.mp hq'
  obtain ⟨hlength, hmarks⟩ := of_decide_eq_true hscan
  refine ⟨q, q', hq, by constructor <;> decide +kernel, hchain, ?_, ?_⟩
  · intro hnil
    rw [hnil] at hlength
    cases hlength
  · rw [hmarks]
    decide

end QueryChain
