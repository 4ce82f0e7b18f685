import QueryChain.Proofs.Chain

/-!
Assembled statements as lists of pieces: the sections of a query and what is written between them.
Whatever is said about a statement as a whole is said about its pieces first.
-/

namespace QueryChain

open Fragment (Worded ofText)

/-- A section of a statement with the words that lead it in. -/
structure Piece where
  lead : String
  body : Fragment

namespace Fragment

theorem empty_append (f : Fragment) : empty ++ f = f := by
  ext1
  · exact String.empty_append
  · exact List.nil_append _

theorem append_empty (f : Fragment) : f ++ empty = f := by
  ext1
  · exact String.append_empty
  · exact List.append_nil _

/-- What stands before the first fragment of a series stands before the series. -/
theorem series_cons (lead sep : String) (f : Fragment) (rest : List Fragment) :
    series lead sep (f :: rest) = ofText lead ++ series "" sep (f :: rest) := by
  show ofText lead ++ f ++ _ = ofText lead ++ (empty ++ f ++ _)
  rw [empty_append, append_assoc]

end Fragment

namespace Piece

def whole (x : Piece) : Fragment :=
  ofText x.lead ++ x.body

/-- The text of the pieces in order, with their parameters. -/
def join : List Piece → Fragment
  | [] => .empty
  | x :: rest => x.whole ++ join rest

theorem join_append (a b : List Piece) : join (a ++ b) = join a ++ join b := by
  induction a with
  | nil => exact (Fragment.empty_append _).symm
  | cons x a ih => rw [List.cons_append, join, ih, join, Fragment.append_assoc]

theorem join_singleton (x : Piece) : join [x] = x.whole :=
  Fragment.append_empty _

theorem sql_join (ps : List Piece) :
    (join ps).sql = String.join (ps.map fun x => x.lead ++ x.body.sql) := by
  induction ps with
  | nil => rfl
  | cons x ps ih =>
    rw [join, Fragment.sql_append, ih, List.map_cons, String.join_cons]
    rfl

theorem params_join (ps : List Piece) : (join ps).params = ps.flatMap (·.body.params) := by
  induction ps with
  | nil => rfl
  | cons x ps ih =>
    rw [join, Fragment.params_append, ih, List.flatMap_cons]
    rfl

/-- A first piece without words before it. -/
theorem join_head (f : Fragment) (ps : List Piece) : join (⟨"", f⟩ :: ps) = f ++ join ps :=
  congrArg (· ++ join ps) (Fragment.empty_append f)

def series (lead sep : String) : List Fragment → List Piece
  | [] => []
  | f :: rest => ⟨lead, f⟩ :: series sep sep rest

theorem join_series (lead sep : String) (fs : List Fragment) :
    join (series lead sep fs) = .series lead sep fs := by
  induction fs generalizing lead with
  | nil => rfl
  | cons f rest ih =>
    cases rest with
    | nil => rfl
    | cons g rest => rw [series, join, ih, Fragment.series_cons_cons]; rfl

theorem mem_series {lead sep : String} {fs : List Fragment} {x : Piece}
    (h : x ∈ series lead sep fs) : (x.lead = lead ∨ x.lead = sep) ∧ x.body ∈ fs := by
  induction fs generalizing lead with
  | nil => cases h
  | cons f rest ih =>
    rcases List.mem_cons.mp h with rfl | h
    · exact ⟨.inl rfl, List.mem_cons_self⟩
    · obtain ⟨hlead, hbody⟩ := ih h
      exact ⟨.inr (hlead.elim id id), List.mem_cons_of_mem _ hbody⟩

end Piece

def sectionLeads : List String :=
  [" WHERE ", " AND ", " GROUP BY ", " ORDER BY ", ", "]

namespace Clauses

def conditionPieces (d : Dialect) (c : Clauses) : List Piece :=
  Piece.series " WHERE " " AND " (c.conditions.map (·.write d))

def groupPieces (c : Clauses) : List Piece :=
  match c.groupBy with
  | some group => [⟨" GROUP BY ", group⟩]
  | none => []

def orderPieces (c : Clauses) : List Piece :=
  Piece.series " ORDER BY " ", " c.orderBy

def boundsPieces (d : Dialect) (c : Clauses) : List Piece :=
  if c.bounds.isUnbounded then [] else [⟨"", d.bounds c.bounds (!c.orderBy.isEmpty)⟩]

def tailPieces (d : Dialect) (c : Clauses) : List Piece :=
  c.conditionPieces d ++ c.groupPieces ++ c.orderPieces ++ c.boundsPieces d

def selectPieces (d : Dialect) (c : Clauses) : List Piece :=
  ⟨"", c.head⟩ :: c.tailPieces d

def countPieces (d : Dialect) (c : Clauses) : List Piece :=
  ⟨"SELECT COUNT(*) AS query_count FROM (", c.head⟩ ::
    (c.conditionPieces d ++ c.groupPieces ++ [⟨") AS t", .empty⟩])

def deletePieces (d : Dialect) (table : String) (c : Clauses) : List Piece :=
  ⟨"DELETE FROM ", ofText table⟩ :: c.conditionPieces d

def updatePieces (d : Dialect) (table : String) (assignments : List (Identifier × Value))
    (c : Clauses) : List Piece :=
  ⟨"UPDATE ", ofText table⟩ ::
    (Piece.series " SET " ", " (assignments.map fun (column, v) => writeAssignment d column v) ++
      c.conditionPieces d)

def sectionPieces (d : Dialect) (c : Clauses) : List Piece :=
  c.conditionPieces d ++ c.groupPieces ++ c.orderPieces

section Sections

variable {P : Fragment → Prop} {d : Dialect} {c : Clauses} {x : Piece}

theorem mem_sectionPieces (h : c.EveryTail P d) (hx : x ∈ c.sectionPieces d) :
    x.lead ∈ sectionLeads ∧ P x.body := by
  rw [sectionPieces, List.mem_append, List.mem_append] at hx
  obtain (hx | hx) | hx := hx
  · obtain ⟨hlead, hbody⟩ := Piece.mem_series hx
    obtain ⟨condition, hcondition, hwrite⟩ := List.mem_map.mp hbody
    refine ⟨?_, hwrite ▸ h.conditions condition hcondition⟩
    rcases hlead with hlead | hlead <;> rw [hlead] <;> decide
  · have hlead : " GROUP BY " ∈ sectionLeads := by decide
    rw [groupPieces] at hx
    split at hx
    · obtain rfl := List.mem_singleton.mp hx
      exact ⟨hlead, h.groupBy _ ‹_›⟩
    · cases hx
  · obtain ⟨hlead, hbody⟩ := Piece.mem_series hx
    refine ⟨?_, h.orderBy _ hbody⟩
    rcases hlead with hlead | hlead <;> rw [hlead] <;> decide

theorem mem_conditionPieces (h : c.EverySection P d) (hx : x ∈ c.conditionPieces d) :
    x.lead ∈ sectionLeads ∧ P x.body :=
  mem_sectionPieces h.tail (List.mem_append_left _ (List.mem_append_left _ hx))

theorem mem_groupPieces (h : c.EverySection P d) (hx : x ∈ c.groupPieces) :
    x.lead ∈ sectionLeads ∧ P x.body :=
  mem_sectionPieces h.tail (List.mem_append_left _ (List.mem_append_right _ hx))

theorem mem_orderPieces (h : c.EverySection P d) (hx : x ∈ c.orderPieces) :
    x.lead ∈ sectionLeads ∧ P x.body :=
  mem_sectionPieces h.tail (List.mem_append_right _ hx)

end Sections

theorem join_conditionPieces (d : Dialect) (c : Clauses) :
    Piece.join (c.conditionPieces d) = c.writeConditions d :=
  Piece.join_series _ _ _

theorem join_groupPieces (c : Clauses) : Piece.join c.groupPieces = c.writeGroup := by
  rw [groupPieces, writeGroup]
  cases c.groupBy with
  | none => rfl
  | some group => exact Piece.join_singleton _

theorem bounds_unbounded (d : Dialect) {b : Bounds} (h : b.isUnbounded = true) (ordered : Bool) :
    d.bounds b ordered = .empty := by
  obtain ⟨limit, offset⟩ := b
  obtain ⟨rfl, rfl⟩ : limit = none ∧ offset = none := by simpa [Bounds.isUnbounded] using h
  cases d <;> rfl

theorem join_boundsPieces (d : Dialect) (c : Clauses) :
    Piece.join (c.boundsPieces d) = d.bounds c.bounds (!c.orderBy.isEmpty) := by
  rw [boundsPieces]
  split
  · rw [bounds_unbounded d ‹_›]
    rfl
  · rw [Piece.join_singleton]
    exact Fragment.empty_append _

theorem select_eq_join (d : Dialect) (c : Clauses) :
    c.select d = Piece.join (c.selectPieces d) := by
  rw [selectPieces, Piece.join_head, tailPieces, Piece.join_append, Piece.join_append,
    Piece.join_append, join_conditionPieces, join_groupPieces, join_boundsPieces, orderPieces,
    Piece.join_series, select, writeFiltered, writeOrder]
  simp only [Fragment.append_assoc]

theorem count_eq_join (d : Dialect) (c : Clauses) : c.count d = Piece.join (c.countPieces d) := by
  rw [countPieces, Piece.join, Piece.join_append, Piece.join_append, join_conditionPieces,
    join_groupPieces, Piece.join_singleton, count, writeFiltered, Piece.whole, Piece.whole,
    Fragment.append_empty]
  simp only [Fragment.append_assoc]

theorem delete_eq_join {d : Dialect} {c : Clauses} {f : Fragment} (h : c.delete d = .ok f) :
    ∃ table, c.target = .ok table ∧ f = Piece.join (c.deletePieces d table) := by
  rw [delete] at h
  split at h
  · cases h
  · rename_i table htable
    obtain rfl := Except.ok.inj h
    refine ⟨table, htable, ?_⟩
    rw [deletePieces, Piece.join, join_conditionPieces]
    rfl

theorem update_eq_join {d : Dialect} {c : Clauses} {assignments : List (Identifier × Value)}
    {f : Fragment} (h : c.update d assignments = .ok f) :
    ∃ table, c.target = .ok table ∧ assignments ≠ [] ∧
      f = Piece.join (c.updatePieces d table assignments) := by
  rw [update] at h
  split at h
  · cases h
  · rename_i table htable
    split at h
    · cases h
    · obtain rfl := Except.ok.inj h
      refine ⟨table, htable, by rintro rfl; simp at *, ?_⟩
      rw [updatePieces, Piece.join, Piece.join_append, Piece.join_series, join_conditionPieces,
        Fragment.append_assoc]
      rfl

end Clauses

/-- An UPDATE assigns the given values to the columns of the given names, in order. -/
theorem Query.updateStatement_ok {q : Query} {pairs : List (String × Value)} {f : Fragment}
    (h : q.updateStatement pairs = .ok f) :
    ∃ assignments, q.clauses.update q.dialect assignments = .ok f ∧
      List.Forall₂ (fun pair assignment => Identifier.ofField pair.1 = .ok assignment.1 ∧
        assignment.2 = pair.2) pairs assignments := by
  rw [updateStatement] at h
  split at h
  · cases h
  · rename_i assignments hassignments
    refine ⟨assignments, h, (forall₂_of_mapM_ok hassignments).imp ?_⟩
    intro pair assignment hpair
    obtain ⟨column, hcolumn, rfl⟩ := Except.map_eq_ok.mp hpair
    exact ⟨hcolumn, rfl⟩

end QueryChain
