import QueryChain.Proofs.Alignment
import QueryChain.Proofs.Insertion
import QueryChain.Proofs.TableQuery
import QueryChain.Proofs.Target

/-!
Placeholders and parameters of assembled statements. Every piece of a statement is aligned on its
own, no piece runs into the next one, and so the statement as a whole is aligned too.
-/

namespace QueryChain

open Fragment (Worded WordedIn ofText)
open Placeholder (Place isStill isClear)

/-- Whether no percent sign before the text would change how it is read. -/
def Fragment.Clear (f : Fragment) : Prop :=
  ∀ c ∈ f.sql.toList.head?, isClear c = true

namespace Fragment

theorem Clear.append {f g : Fragment} (hf : Clear f) (hg : Clear g) : Clear (f ++ g) :=
  StartsIn.append hf hg

/-- A text that begins with a clear character is clear, whatever follows. -/
theorem Clear.lead {s : String} (hs : s.toList.head?.any isClear = true) (f : Fragment) :
    Clear (ofText s ++ f) :=
  StartsIn.lead hs f

end Fragment

open Fragment (Clear)

theorem Dialect.bounds_clear (d : Dialect) (b : Bounds) (ordered : Bool) :
    Clear (d.bounds b ordered) :=
  Fragment.StartsIn.bounds rfl d b ordered

/-! ### Pieces -/

/-- Whether words may stand before a section: they open no quote and count nothing, and no percent
sign runs into them. -/
def isLead (s : String) : Bool :=
  s.toList.all isStill && s.toList.head?.any isClear

structure Piece.Aligned (p : Placeholder) (x : Piece) : Prop where
  lead : x.lead.toList.all isStill = true
  body : x.body.Aligned p
  clear : Clear x.whole

namespace Piece

variable {p : Placeholder}

theorem Aligned.ofLead {lead : String} (hlead : isLead lead = true) {body : Fragment}
    (hbody : body.Aligned p) : Aligned p ⟨lead, body⟩ := by
  rw [isLead, Bool.and_eq_true] at hlead
  exact ⟨hlead.1, hbody, .lead hlead.2 _⟩

theorem Aligned.whole {x : Piece} (h : x.Aligned p) : x.whole.Aligned p :=
  h.body.behind (List.all_eq_true.mp h.lead)

theorem join_aligned {ps : List Piece} (h : ∀ x ∈ ps, x.Aligned p) :
    (join ps).Aligned p ∧ Clear (join ps) := by
  induction ps with
  | nil =>
    have hempty : Fragment.Worded p Fragment.empty := .word (by decide)
    exact ⟨hempty.aligned, fun c hc => by cases hc⟩
  | cons x rest ih =>
    obtain ⟨hx, hrest⟩ := List.forall_mem_cons.mp h
    -- The rest counts alone what it counts here, since it is clear.
    obtain ⟨haligned, hclear⟩ := ih hrest
    exact ⟨hx.whole.append haligned hclear, hx.clear.append hclear⟩

end Piece

/-- Whether a statement is the given pieces one behind the other, each of them and the whole with a
placeholder for each parameter. -/
structure Fragment.Composed (p : Placeholder) (f : Fragment) (ps : List Piece) : Prop where
  sql : f.sql = String.join (ps.map fun x => x.lead ++ x.body.sql)
  params : f.params = ps.flatMap (·.body.params)
  leads : ∀ x ∈ ps, p.count x.lead = 0
  bodies : ∀ x ∈ ps, p.count x.body.sql = x.body.params.length
  total : p.count f.sql = f.params.length

namespace Piece

variable {p : Placeholder}

theorem count_lead {lead : String} (h : lead.toList.all isStill = true) : p.count lead = 0 :=
  (Placeholder.still_plain p (List.all_eq_true.mp h)).1

/-- The first piece may have no words before it. -/
theorem join_composed {lead : String} {body : Fragment} {rest : List Piece}
    (hlead : lead.toList.all isStill = true) (hbody : body.Aligned p)
    (hrest : ∀ x ∈ rest, x.Aligned p) :
    (join (⟨lead, body⟩ :: rest)).Composed p (⟨lead, body⟩ :: rest) := by
  obtain ⟨haligned, hclear⟩ := join_aligned hrest
  refine ⟨sql_join _, params_join _, ?_, ?_, ?_⟩
  · rintro x (_ | ⟨_, hx⟩)
    · exact count_lead hlead
    · exact count_lead (hrest x hx).lead
  · rintro x (_ | ⟨_, hx⟩)
    · exact hbody.count
    · exact (hrest x hx).body.count
  · have hfirst : Fragment.Aligned p (ofText lead ++ body) :=
      hbody.behind (List.all_eq_true.mp hlead)
    exact (hfirst.append haligned hclear).count

theorem series_aligned {lead sep : String} (hlead : isLead lead = true) (hsep : isLead sep = true)
    {fs : List Fragment} (h : ∀ f ∈ fs, f.Aligned p) :
    ∀ x ∈ series lead sep fs, x.Aligned p := by
  rintro ⟨words, body⟩ hx
  obtain ⟨rfl | rfl, hbody⟩ := mem_series hx
  · exact .ofLead hlead (h _ hbody)
  · exact .ofLead hsep (h _ hbody)

end Piece

/-! ### Statements -/

namespace Clauses

variable {d : Dialect} {c : Clauses}

theorem section_aligned {p : Placeholder} {x : Piece}
    (h : x.lead ∈ sectionLeads ∧ x.body.Aligned p) : x.Aligned p := by
  have hleads : ∀ lead ∈ sectionLeads, isLead lead = true := by decide
  exact .ofLead (hleads x.lead h.1) h.2

theorem boundsPieces_aligned (d : Dialect) (c : Clauses) :
    ∀ x ∈ c.boundsPieces d, x.Aligned d.placeholder := by
  intro x hx
  rw [boundsPieces] at hx
  split at hx
  · cases hx
  · obtain rfl := List.mem_singleton.mp hx
    refine ⟨by rfl, (d.bounds_worded _ _).aligned, ?_⟩
    rw [Piece.whole]
    exact Fragment.empty_append (d.bounds c.bounds _) ▸ d.bounds_clear _ _

theorem select_composed (h : c.EverySection (·.Aligned d.placeholder) d) :
    (c.select d).Composed d.placeholder (c.selectPieces d) := by
  rw [select_eq_join]
  refine Piece.join_composed (by decide) h.head ?_
  simp only [tailPieces, List.forall_mem_append]
  refine ⟨⟨⟨?_, ?_⟩, ?_⟩, boundsPieces_aligned d c⟩
  · exact fun x hx => section_aligned (mem_conditionPieces h hx)
  · exact fun x hx => section_aligned (mem_groupPieces h hx)
  · exact fun x hx => section_aligned (mem_orderPieces h hx)

theorem count_composed (h : c.EverySection (·.Aligned d.placeholder) d) :
    (c.count d).Composed d.placeholder (c.countPieces d) := by
  have hclose : Piece.Aligned d.placeholder ⟨") AS t", .empty⟩ :=
    .ofLead (by decide) (Worded.aligned (.word (by decide)))
  rw [count_eq_join]
  refine Piece.join_composed (by decide) h.head ?_
  simp only [List.forall_mem_append, List.forall_mem_singleton]
  refine ⟨⟨?_, ?_⟩, hclose⟩
  · exact fun x hx => section_aligned (mem_conditionPieces h hx)
  · exact fun x hx => section_aligned (mem_groupPieces h hx)

theorem delete_composed (h : c.EverySection (·.Aligned d.placeholder) d) {table : String}
    (htable : c.target = .ok table) :
    (Piece.join (c.deletePieces d table)).Composed d.placeholder (c.deletePieces d table) :=
  Piece.join_composed (by decide) (target_worded htable).aligned
    fun _ hx => section_aligned (mem_conditionPieces h hx)

theorem update_composed (h : c.EverySection (·.Aligned d.placeholder) d) {table : String}
    (htable : c.target = .ok table) (assignments : List (Identifier × Value)) :
    (Piece.join (c.updatePieces d table assignments)).Composed d.placeholder
      (c.updatePieces d table assignments) := by
  refine Piece.join_composed (by decide) (target_worded htable).aligned ?_
  simp only [List.forall_mem_append]
  refine ⟨?_, fun x hx => section_aligned (mem_conditionPieces h hx)⟩
  apply Piece.series_aligned (by decide) (by decide)
  intro f hf
  obtain ⟨⟨column, v⟩, -, rfl⟩ := List.mem_map.mp hf
  exact (writeAssignment_worded d column v).aligned

end Clauses

theorem Table.insert_composed (d : Dialect) (table : QualifiedName) {columns : List QualifiedName}
    {values : List Value} (hlength : columns.length = values.length) (hne : columns ≠ []) :
    Fragment.Composed d.placeholder ⟨insertSql d table columns, values⟩
      (insertPieces d table columns values) := by
  have hcolumns : Worded d.placeholder
      (ofText (", ".intercalate (columns.map QualifiedName.sql))) := by
    apply WordedIn.intercalate (by decide) (by decide)
    intro s hs
    obtain ⟨n, -, rfl⟩ := List.mem_map.mp hs
    exact .qualifiedName (by decide) (by decide) n
  have hclose : Piece.Aligned d.placeholder ⟨")", .empty⟩ :=
    .ofLead (by decide) (Worded.aligned (.word (by decide)))
  rw [insert_eq_join d table hlength hne]
  refine Piece.join_composed (by decide)
    (Worded.aligned (.qualifiedName (by decide) (by decide) table)) ?_
  rw [List.forall_mem_cons, List.forall_mem_append, List.forall_mem_singleton]
  refine ⟨.ofLead (by decide) hcolumns.aligned, ?_, hclose⟩
  apply Piece.series_aligned (by decide) (by decide)
  intro f hf
  obtain ⟨v, -, rfl⟩ := List.mem_map.mp hf
  exact Worded.aligned (.bind v)

theorem Table.insertStatement_composed {d : Dialect} {table : String}
    {cells : List (String × Value)} {f : Fragment} (h : insertStatement d table cells = .ok f) :
    ∃ name columns, QualifiedName.parse table = .ok name ∧
      f.Composed d.placeholder (insertPieces d name columns f.params) := by
  obtain ⟨name, columns, hname, hne, hcolumns, rfl⟩ := insertStatement_ok h
  refine ⟨name, columns, hname, insert_composed d name ?_ hne⟩
  rw [List.length_map]
  exact hcolumns.length_eq.symm

/-- An insertion of rows sends one text, and each row has a parameter for every placeholder. -/
theorem Table.insertManyStatement_composed {d : Dialect} {table : String} {first : Row}
    {rows : List Row} {sql : String} {batches : List (List Value)}
    (h : insertManyStatement d table first rows = .ok (sql, batches)) :
    ∃ name columns, QualifiedName.parse table = .ok name ∧ ∀ values ∈ batches,
      Fragment.Composed d.placeholder ⟨sql, values⟩ (insertPieces d name columns values) := by
  obtain ⟨name, columns, hname, hne, hcolumns, rfl, hbatches⟩ := insertManyStatement_ok h
  refine ⟨name, columns, hname, ?_⟩
  intro values hvalues
  obtain ⟨row, -, hrow, rfl⟩ := exists_of_forall₂ hbatches hvalues
  apply insert_composed d name _ hne
  rw [← hcolumns.length_eq, ← hrow, Row.values, Row.columns]
  simp only [List.length_map]

/-! ### Chains -/

/-- The queries that chains begin with: that of a table, and that of a base statement with its
parameters in which all quotes are closed and no line comment is opened. -/
inductive Query.Opened (d : Dialect) (q : Query) : Prop
  | table {table : String} (h : Query.ofTable d table = .ok q) : Opened d q
  | base {base : String} {params : List Value} (h : Query.ofBaseWith d base params = .ok q)
      (closed : (({} : Context).after base.toList).quote = none)
      (uncommented : ({} : Context).Uncommented base.toList) : Opened d q

theorem Query.Opened.aligned {d : Dialect} {q : Query} (h : q.Opened d) :
    q.dialect = d ∧ q.clauses.EverySection (·.Aligned d.placeholder) d := by
  cases h with
  | table h => exact ofTable_everySection h fun f hf => hf.aligned
  | base h closed uncommented =>
    rw [ofBaseWith] at h
    split at h
    · cases h
    · rename_i hcount
      obtain ⟨c, hc, rfl⟩ := Except.map_eq_ok.mp h
      exact ⟨rfl, Clauses.parse_aligned hc (not_not.mp hcount) uncommented closed⟩

/-- An update binds the values that it is called with, in their order. -/
theorem Query.updateStatement_composed {q : Query} {pairs : List (String × Value)} {f : Fragment}
    (hsections : q.clauses.EverySection (·.Aligned q.dialect.placeholder) q.dialect)
    (h : q.updateStatement pairs = .ok f) :
    ∃ table assignments, q.clauses.target = .ok table ∧
      assignments.map Prod.snd = pairs.map Prod.snd ∧
      f.Composed q.dialect.placeholder (q.clauses.updatePieces q.dialect table assignments) := by
  obtain ⟨assignments, hupdate, hpairs⟩ := updateStatement_ok h
  obtain ⟨table, htable, -, rfl⟩ := Clauses.update_eq_join hupdate
  refine ⟨table, assignments, htable, ?_, Clauses.update_composed hsections htable assignments⟩
  clear h hupdate
  induction hpairs with
  | nil => rfl
  | cons hpair _ ih => rw [List.map_cons, List.map_cons, hpair.2, ih]

/-- Every statement of a query that a chain leads to is composed of aligned pieces, and so is every
insertion. -/
theorem Query.chain_composed {d : Dialect} {q q' : Query} {ops : List Operation}
    (hq : q.Opened d) (h : q.chain ops = .ok q') :
    q'.select.Composed d.placeholder (q'.clauses.selectPieces d) ∧
      q'.countStatement.Composed d.placeholder (q'.clauses.countPieces d) ∧
      (∀ f, q'.deleteStatement = .ok f → ∃ table, q'.clauses.target = .ok table ∧
        f.Composed d.placeholder (q'.clauses.deletePieces d table)) ∧
      (∀ pairs f, q'.updateStatement pairs = .ok f → ∃ table assignments,
        q'.clauses.target = .ok table ∧
        assignments.map Prod.snd = pairs.map Prod.snd ∧
        f.Composed d.placeholder (q'.clauses.updatePieces d table assignments)) ∧
      (∀ table cells f, Table.insertStatement d table cells = .ok f → ∃ name columns,
        QualifiedName.parse table = .ok name ∧
        f.Composed d.placeholder (Table.insertPieces d name columns f.params)) ∧
      (∀ table first rows sql batches,
        Table.insertManyStatement d table first rows = .ok (sql, batches) → ∃ name columns,
          QualifiedName.parse table = .ok name ∧ ∀ values ∈ batches,
            Fragment.Composed d.placeholder ⟨sql, values⟩
              (Table.insertPieces d name columns values)) := by
  obtain ⟨hstart, hsections⟩ := hq.aligned
  have hdialect : q'.dialect = d := (chain_dialect h).trans hstart
  have hend : q'.clauses.EverySection (·.Aligned d.placeholder) d := by
    rw [← hstart] at hsections ⊢
    exact hsections.chain (fun f hf => hf.aligned) h
  subst hdialect
  refine ⟨Clauses.select_composed hend, Clauses.count_composed hend, ?_, ?_, ?_, ?_⟩
  · intro f hf
    obtain ⟨table, htable, rfl⟩ := Clauses.delete_eq_join hf
    exact ⟨table, htable, Clauses.delete_composed hend htable⟩
  · exact fun pairs f hf => updateStatement_composed hend hf
  · exact fun table cells f hf => Table.insertStatement_composed hf
  · exact fun table first rows sql batches hrows => Table.insertManyStatement_composed hrows

/-- A base with a parameter in its condition, and a chain that binds three more. -/
theorem Query.chain_composed_of_base :
    ∃ q q', Query.ofBaseWith .tsql "SELECT * FROM t WHERE a = ? ORDER BY b" [.int 1] = .ok q ∧
      q.chain [.filter [("c__in", .list [.int 2, .int 3])], .limit 4] = .ok q' ∧
      q'.select.Composed .question (q'.clauses.selectPieces .tsql) := by
  have hok : ((Query.ofBaseWith .tsql "SELECT * FROM t WHERE a = ? ORDER BY b" [.int 1]).bind
      (·.chain [.filter [("c__in", .list [.int 2, .int 3])], .limit 4])).isOk = true := by
    decide +kernel
  obtain ⟨q', hq'⟩ := Except.exists_of_isOk hok
  obtain ⟨q, hq, hchain⟩ := Except.bind_eq_ok.mp hq'
  have hopen : q.Opened .tsql :=
    .base hq (by decide +kernel) (Context.uncommented_of_not_mem rfl (by decide))
  exact ⟨q, q', hq, hchain, (chain_composed hopen hchain).1⟩

end QueryChain
