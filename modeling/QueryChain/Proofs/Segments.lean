import QueryChain.Proofs.Layout

/-!
The SELECT of a query of a table as a layout. Behind the base of the table stand a condition, a
group, an order and the bounds, each at most once, and the body of each of them is read as a whole.
-/

namespace QueryChain

open Fragment (WordedIn ofText)
open Placeholder (Place)

/-! ### Clauses on a table -/

/-- Whether clauses are the base of a table and what chained calls may add to it. -/
structure Clauses.OnTable (name : QualifiedName) (c : Clauses) : Prop where
  head : c.head = ofText (tableBase name)
  conditions : ∀ x ∈ c.conditions, x.IsDerived
  groupBy : ∀ g, c.groupBy = some g → ∃ columns : List Identifier, columns ≠ [] ∧
    g = ofText (", ".intercalate (columns.map Identifier.sql))
  orderBy : ∀ t ∈ c.orderBy, ∃ (k : SortKey) (s : String), k.term = .ok s ∧ t = ofText s

theorem Clauses.OnTable.step {name : QualifiedName} {c c' : Clauses} (hc : c.OnTable name)
    (h : c.Step c') : c'.OnTable name := by
  cases h with
  | conditions derived =>
    refine ⟨hc.head, ?_, hc.groupBy, hc.orderBy⟩
    intro x hx
    exact (List.mem_append.mp hx).elim (hc.conditions x) (derived x)
  | order keys =>
    refine ⟨hc.head, hc.conditions, hc.groupBy, ?_⟩
    intro t ht
    rcases List.mem_append.mp ht with ht | ht
    · exact hc.orderBy t ht
    · obtain ⟨s, hs, rfl⟩ := List.mem_map.mp ht
      obtain ⟨k, hk⟩ := keys s hs
      exact ⟨k, s, hk, rfl⟩
  | @group columns nonempty =>
    refine ⟨hc.head, hc.conditions, ?_, hc.orderBy⟩
    intro g hg
    exact ⟨columns, nonempty, (Option.some.inj hg).symm⟩
  | bounds b => exact ⟨hc.head, hc.conditions, hc.groupBy, hc.orderBy⟩
  | same => exact hc

theorem Query.chain_onTable {d : Dialect} {table : String} {q q' : Query} {ops : List Operation}
    (hq : Query.ofTable d table = .ok q) (h : q.chain ops = .ok q') :
    q'.dialect = d ∧ ∃ name, q'.clauses.OnTable name := by
  obtain ⟨name, -, rfl⟩ := ofTable_ok hq
  refine ⟨chain_dialect h, name, ?_⟩
  refine chain_keeps (P := fun x => x.clauses.OnTable name) ?_ h ?_
  · exact fun x y op hx hop => hx.step (Operation.run_step hop).2
  · exact ⟨rfl, by simp, by simp, by simp⟩

/-! ### The clauses of a SELECT -/

def Segment.ofSeries (k : Keyword) (sep : String) (fs : List Fragment) : List Segment :=
  if fs.isEmpty then [] else [⟨k, .series "" sep fs⟩]

def Dialect.boundSegments : Dialect → Bounds → List Segment
  | _, ⟨none, none⟩ => []
  | .tsql, ⟨none, some n⟩ => [⟨.offset, ⟨"? ROWS", [.int n]⟩⟩]
  | .tsql, ⟨some m, none⟩ => [⟨.offset, ⟨"0 ROWS FETCH NEXT ? ROWS ONLY", [.int m]⟩⟩]
  | .tsql, ⟨some m, some n⟩ => [⟨.offset, ⟨"? ROWS FETCH NEXT ? ROWS ONLY", [.int n, .int m]⟩⟩]
  | .postgres, ⟨none, some n⟩ => [⟨.offset, ⟨"%s", [.int n]⟩⟩]
  | .postgres, ⟨some m, none⟩ => [⟨.limit, ⟨"%s", [.int m]⟩⟩]
  | .postgres, ⟨some m, some n⟩ => [⟨.limit, ⟨"%s", [.int m]⟩⟩, ⟨.offset, ⟨"%s", [.int n]⟩⟩]
  | .sqlite, ⟨none, some n⟩ => [⟨.limit, ofText "-1"⟩, ⟨.offset, ⟨"?", [.int n]⟩⟩]
  | .sqlite, ⟨some m, none⟩ => [⟨.limit, ⟨"?", [.int m]⟩⟩]
  | .sqlite, ⟨some m, some n⟩ => [⟨.limit, ⟨"?", [.int m]⟩⟩, ⟨.offset, ⟨"?", [.int n]⟩⟩]

namespace Clauses

/-- The terms that the statement is ordered by, of which T-SQL needs one to bound the rows. -/
def writtenOrder (d : Dialect) (c : Clauses) : List Fragment :=
  if d = .tsql ∧ c.orderBy = [] ∧ c.bounds.isUnbounded = false then [ofText "(SELECT NULL)"]
  else c.orderBy

def groupSegments (c : Clauses) : List Segment :=
  match c.groupBy with
  | some group => [⟨.groupBy, group⟩]
  | none => []

def segments (d : Dialect) (c : Clauses) : List Segment :=
  Segment.ofSeries .condition " AND " (c.conditions.map (·.write d)) ++ c.groupSegments ++
    Segment.ofSeries .orderBy ", " (c.writtenOrder d) ++ d.boundSegments c.bounds

end Clauses

theorem Segment.layout_ofSeries {k : Keyword} {lead sep : String}
    (hlead : lead = " " ++ String.ofList k.text ++ " ") (fs : List Fragment) :
    layout (ofSeries k sep fs) = .series lead sep fs := by
  cases fs with
  | nil => rfl
  | cons f rest =>
    rw [Fragment.series_cons, hlead]
    exact layout_singleton _

theorem Dialect.layout_boundSegments (d : Dialect) (b : Bounds) :
    Segment.layout (d.boundSegments b) = d.bounds b true := by
  obtain ⟨limit, offset⟩ := b
  cases d <;> cases limit <;> cases offset <;> rfl

namespace Clauses

/-- The order of a statement and its bounds are its last clauses. -/
theorem layout_order_bounds (d : Dialect) (c : Clauses) :
    Segment.layout (Segment.ofSeries .orderBy ", " (c.writtenOrder d)) ++
        Segment.layout (d.boundSegments c.bounds) =
      c.writeOrder ++ d.bounds c.bounds (!c.orderBy.isEmpty) := by
  have hlead : " ORDER BY " = " " ++ String.ofList Keyword.orderBy.text ++ " " := by decide
  obtain ⟨head, conditions, groupBy, orderBy, limit, offset⟩ := c
  rw [Segment.layout_ofSeries hlead, d.layout_boundSegments, writtenOrder]
  cases orderBy with
  | nil => cases d <;> cases limit <;> cases offset <;> rfl
  | cons t rest =>
    rw [if_neg (by simp)]
    rfl

theorem select_eq_layout (d : Dialect) (c : Clauses) :
    c.select d = c.head ++ Segment.layout (c.segments d) := by
  have hlead : " WHERE " = " " ++ String.ofList Keyword.condition.text ++ " " := by decide
  have hgroup : Segment.layout c.groupSegments = c.writeGroup := by
    rw [groupSegments, writeGroup]
    cases c.groupBy with
    | none => rfl
    | some g => exact Segment.layout_singleton _
  rw [segments, Segment.layout_append, Segment.layout_append, Segment.layout_append,
    Segment.layout_ofSeries hlead, hgroup, Fragment.append_assoc, layout_order_bounds, select,
    writeFiltered, writeConditions]
  simp only [Fragment.append_assoc]

end Clauses

/-! ### Legible clauses -/

theorem Dialect.firm_like (d : Dialect) (i : Identifier) (ignoreCase : Bool) :
    Firm (if ignoreCase then d.ilike i.sql else d.like i.sql) := by
  have hend : Firm (d.placeholder.token ++ d.likeEscape) := by cases d <;> decide
  have hlike : d.like i.sql = i.sql ++ " LIKE " ++ (d.placeholder.token ++ d.likeEscape) := by
    rw [like, String.append_assoc]
  cases ignoreCase with
  | false =>
    rw [if_neg Bool.false_ne_true, hlike]
    exact i.firm_sql.around _ hend
  | true =>
    rw [if_pos rfl]
    cases d with
    | postgres => exact i.firm_sql.around " ILIKE " (b := "%s") (by decide)
    | tsql | sqlite =>
      have hopen : Firm "UPPER(" := by decide
      have hclose : Firm (")" ++ " ESCAPE '\\'") := by decide
      have hilike := hopen.around (i.sql ++ ") LIKE UPPER(" ++ "?") hclose
      simp only [String.append_assoc] at hilike
      simpa only [ilike, likeEscape, placeholder, Placeholder.token, String.append_assoc]
        using hilike

/-- A condition that comes from lookups begins with a name or a word, and ends with a placeholder
or a word. -/
theorem Condition.firm_write (d : Dialect) {c : Condition} (h : c.IsDerived) :
    Firm (c.write d).sql := by
  have htoken : Firm d.placeholder.token := by cases d <;> decide
  have hparenthesis : Firm ")" := by decide
  cases c with
  | never => exact (by decide : Firm "1 = 0")
  | isNull field =>
    exact .append field.firm_sql.front (by decide : hasBack " IS NULL".toList = true)
  | isNotNull field =>
    exact .append field.firm_sql.front (by decide : hasBack " IS NOT NULL".toList = true)
  | compare field comparison operand =>
    have hwrite : ((compare field comparison operand).write d).sql =
        field.sql ++ (" " ++ comparison.operator ++ " ") ++ d.placeholder.token := by
      simp only [write, Fragment.sql_append, Fragment.sql_ofText, Placeholder.bind,
        String.append_assoc]
    rw [hwrite]
    exact field.firm_sql.around _ htoken
  | oneOf field operands =>
    have hwrite : ((oneOf field operands).write d).sql =
        field.sql ++ (" IN (" ++ (d.placeholder.bindAll operands).sql) ++ ")" := by
      simp only [write, Fragment.sql_append, Fragment.sql_ofText, String.append_assoc]
    rw [hwrite]
    exact field.firm_sql.around _ hparenthesis
  | like field ignoreCase pattern => exact d.firm_like field ignoreCase
  | not c => exact Firm.around (a := "NOT (") (by decide) (c.write d).sql hparenthesis
  | given fragment => exact h.elim

theorem SortKey.firm_term {k : SortKey} {s : String} (h : k.term = .ok s) : Firm s := by
  simp only [term] at h
  split at h
  · cases h
  · obtain rfl := Except.ok.inj h
    have hdirection : Firm k.direction.sql := by cases k.direction <;> decide
    exact (Identifier.firm_sql _).around " " hdirection

namespace Segment

theorem legible_ofSeries {p : Placeholder} {k : Keyword} {sep : String} (hsep : sep ∈ sectionWords)
    {fs : List Fragment} (hwords : ∀ f ∈ fs, WordedIn sectionWords p f)
    (hfirm : ∀ f ∈ fs, Firm f.sql) : ∀ s ∈ ofSeries k sep fs, s.Legible p := by
  intro s hs
  rw [ofSeries] at hs
  split at hs
  · cases hs
  · rename_i hne
    obtain rfl := List.mem_singleton.mp hs
    refine legible_of_wordedIn (.series (by decide) (by decide) hsep hwords) ?_
    rw [Fragment.sql_series_empty]
    refine .intercalate sep (by simpa using hne) ?_
    intro text htext
    obtain ⟨f, hf, rfl⟩ := List.mem_map.mp htext
    exact hfirm f hf

/-- A body without names is read as a whole if its text alone says so. -/
theorem legible_of_text {p : Placeholder} {s : String} {n : Nat}
    (h : ({} : Context).Silent s.toList ∧ (({} : Context).after s.toList).AtLevel 0 ∧
      p.countFrom .plain s.toList = n ∧ Place.plain.after s.toList = .plain ∧ Firm s)
    {k : Keyword} {vs : List Value} (hvs : vs.length = n) : Legible p ⟨k, s, vs⟩ := by
  obtain ⟨hsilent, hlevel, hcount, hplain, hfirm⟩ := h
  exact ⟨hsilent, hlevel, hcount.trans hvs.symm, hplain, hfirm⟩

end Segment

theorem Dialect.legible_boundSegments (d : Dialect) (b : Bounds) :
    ∀ s ∈ d.boundSegments b, s.Legible d.placeholder := by
  have hquestion (k : Keyword) (n : Int64) : Segment.Legible .question ⟨k, "?", [.int n]⟩ :=
    Segment.legible_of_text (n := 1) (by decide) rfl
  have hpercent (k : Keyword) (n : Int64) : Segment.Legible .percent ⟨k, "%s", [.int n]⟩ :=
    Segment.legible_of_text (n := 1) (by decide) rfl
  obtain ⟨limit, offset⟩ := b
  cases d with
  | tsql =>
    rcases limit with _ | m <;> rcases offset with _ | n
    · exact List.forall_mem_nil _
    · exact List.forall_mem_singleton.mpr (Segment.legible_of_text (n := 1) (by decide) rfl)
    · exact List.forall_mem_singleton.mpr (Segment.legible_of_text (n := 1) (by decide) rfl)
    · exact List.forall_mem_singleton.mpr (Segment.legible_of_text (n := 2) (by decide) rfl)
  | postgres =>
    rcases limit with _ | m <;> rcases offset with _ | n
    · exact List.forall_mem_nil _
    · exact List.forall_mem_singleton.mpr (hpercent .offset n)
    · exact List.forall_mem_singleton.mpr (hpercent .limit m)
    · exact List.forall_mem_cons.mpr
        ⟨hpercent .limit m, List.forall_mem_singleton.mpr (hpercent .offset n)⟩
  | sqlite =>
    rcases limit with _ | m <;> rcases offset with _ | n
    · exact List.forall_mem_nil _
    · have hnone : Segment.Legible .question ⟨.limit, "-1", []⟩ :=
        Segment.legible_of_text (n := 0) (by decide) rfl
      exact List.forall_mem_cons.mpr ⟨hnone, List.forall_mem_singleton.mpr (hquestion .offset n)⟩
    · exact List.forall_mem_singleton.mpr (hquestion .limit m)
    · exact List.forall_mem_cons.mpr
        ⟨hquestion .limit m, List.forall_mem_singleton.mpr (hquestion .offset n)⟩

namespace Clauses

variable {name : QualifiedName} {d : Dialect} {c : Clauses}

theorem OnTable.legible_segments (hc : c.OnTable name) :
    ∀ s ∈ c.segments d, s.Legible d.placeholder := by
  simp only [segments, List.forall_mem_append]
  refine ⟨⟨⟨?conditions, ?group⟩, ?order⟩, d.legible_boundSegments c.bounds⟩
  case conditions =>
    apply Segment.legible_ofSeries (by decide)
    · intro f hf
      obtain ⟨x, hx, rfl⟩ := List.mem_map.mp hf
      exact x.write_wordedIn d (hc.conditions x hx)
    · intro f hf
      obtain ⟨x, hx, rfl⟩ := List.mem_map.mp hf
      exact x.firm_write d (hc.conditions x hx)
  case group =>
    intro s hs
    rw [groupSegments] at hs
    split at hs
    · rename_i g hg
      obtain rfl := List.mem_singleton.mp hs
      obtain ⟨columns, hne, rfl⟩ := hc.groupBy g hg
      refine Segment.legible_of_wordedIn (.names (by decide) columns (by decide)) ?_
      refine .intercalate ", " (by simpa using hne) ?_
      intro text htext
      obtain ⟨i, -, rfl⟩ := List.mem_map.mp htext
      exact i.firm_sql
    · cases hs
  case order =>
    rw [writtenOrder]
    split
    · have hnull : WordedIn sectionWords d.placeholder (ofText "(SELECT NULL)") :=
        WordedIn.congr (.enclosed (.word (s := "SELECT NULL") (by decide))) (by decide) rfl
      apply Segment.legible_ofSeries (by decide)
      · exact List.forall_mem_singleton.mpr hnull
      · exact List.forall_mem_singleton.mpr (by decide)
    · apply Segment.legible_ofSeries (by decide)
      · intro t ht
        obtain ⟨k, s, hk, rfl⟩ := hc.orderBy t ht
        exact SortKey.term_wordedIn hk
      · intro t ht
        obtain ⟨k, s, hk, rfl⟩ := hc.orderBy t ht
        exact SortKey.firm_term hk

/-- No clause is written twice. -/
theorem keyword_segments (d : Dialect) (c : Clauses) :
    ((c.segments d).map Segment.keyword).Sublist
      [.condition, .groupBy, .orderBy, .limit, .offset] := by
  have hseries (k : Keyword) (sep : String) (fs : List Fragment) :
      ((Segment.ofSeries k sep fs).map Segment.keyword).Sublist [k] := by
    cases fs with
    | nil => exact List.nil_sublist [k]
    | cons f rest => exact List.Sublist.refl [k]
  have hgroup : (c.groupSegments.map Segment.keyword).Sublist [.groupBy] := by
    rw [groupSegments]
    cases c.groupBy with
    | none => exact List.nil_sublist _
    | some g => exact List.Sublist.refl _
  have hbounds : ((d.boundSegments c.bounds).map Segment.keyword).Sublist [.limit, .offset] := by
    obtain ⟨limit, offset⟩ := c.bounds
    cases d <;> cases limit <;> cases offset <;> exact List.isSublist_iff_sublist.mp rfl
  rw [segments, List.map_append, List.map_append, List.map_append]
  exact (((hseries .condition " AND " _).append hgroup).append (hseries .orderBy ", " _)).append
    hbounds

end Clauses

end QueryChain
