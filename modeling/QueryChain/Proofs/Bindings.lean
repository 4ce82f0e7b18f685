import QueryChain.Proofs.Acceptance
import QueryChain.Proofs.Insertion
import QueryChain.Proofs.Segments

/-!
The values that statements bind. Those of a query of a table are what its calls bind of their
operands, in the order of the calls, and the bounds; values that are assigned or inserted are bound
in their stored form.

A list is never stored as a list. A lookup may still bind one: an ordering binds its operand as it
is, and a test for membership the items of its operand.
-/

namespace QueryChain

open Fragment (ofText)

/-! ### Operands -/

def Lookup.bound (lookup : Lookup) (operand : Value) : List Value :=
  match lookup with
  | .exact => if operand.isNull then [] else [operand]
  | .oneOf => operand.asList?.getD []
  | .isNull => []
  | .gt | .gte | .lt | .lte => [operand]
  | l => if operand.isNull then [] else [.text ((l.pattern? operand.toText).getD "")]

namespace Condition

theorem params_ofOperand {i : Identifier} {lookup : Lookup} {operand : Value} {c : Condition}
    (h : ofOperand i lookup operand = .ok c) (d : Dialect) :
    (c.write d).params = lookup.bound operand := by
  cases lookup with
  | exact =>
    obtain ⟨hnull, rfl⟩ | ⟨hnull, rfl⟩ := exact_ok h <;> rw [Lookup.bound, hnull] <;> rfl
  | oneOf =>
    obtain ⟨vs, hvs, rfl⟩ := oneOf_ok h
    rw [Lookup.bound, hvs]
    cases vs with
    | nil => rfl
    | cons v vs =>
      simp only [List.isEmpty_cons, Bool.false_eq_true, if_false, write, Fragment.params_append,
        Fragment.params_ofText, Placeholder.params_bindAll, List.nil_append, List.append_nil,
        Option.getD_some]
  | isNull =>
    obtain rfl := Except.ok.inj h
    split <;> rfl
  | gt | gte | lt | lte =>
    obtain rfl := Except.ok.inj h
    rfl
  | startsWith | endsWith | contains | iContains | iStartsWith | iEndsWith =>
    obtain rfl := Except.ok.inj h
    simp only [Lookup.bound]
    split <;> rfl

theorem params_ofLookup {field : String} {lookup : Lookup} {operand : Value} {c : Condition}
    (h : ofLookup field lookup operand = .ok c) (d : Dialect) :
    (c.write d).params = lookup.bound operand := by
  obtain ⟨i, -, hc⟩ := ofLookup_ok h
  exact params_ofOperand hc d

theorem params_not (c : Condition) (d : Dialect) : (c.not.write d).params = (c.write d).params := by
  simp only [write, Fragment.params_append, Fragment.params_ofText, List.nil_append,
    List.append_nil]

theorem params_ofPairs {pairs : List (String × Value)} {cs : List Condition}
    (h : ofPairs pairs = .ok cs) (d : Dialect) :
    cs.flatMap (fun c => (c.write d).params) =
      pairs.flatMap fun x => (Key.parse x.1).lookup.bound x.2 := by
  have hall := forall₂_of_mapM_ok h
  clear h
  induction hall with
  | nil => rfl
  | cons hx _ ih => rw [List.flatMap_cons, List.flatMap_cons, params_ofLookup hx d, ih]

end Condition

/-! ### Calls -/

def Operation.bound : Operation → List Value
  | .filter pairs | .exclude pairs => pairs.flatMap fun x => (Key.parse x.1).lookup.bound x.2
  | .search field needle =>
    if field.isEmpty || needle.isEmpty then [] else Lookup.iContains.bound (.text needle)
  | _ => []

def Query.bound (q : Query) : List Value :=
  (q.clauses.writeConditions q.dialect).params

theorem Query.bound_eq (q : Query) :
    q.bound = q.clauses.conditions.flatMap fun c => (c.write q.dialect).params := by
  rw [bound, Clauses.writeConditions, Fragment.params_series, List.flatMap_map]

theorem Query.bound_addConditions (q : Query) (cs : List Condition) :
    (q.mapClauses (·.addConditions cs)).bound =
      q.bound ++ cs.flatMap fun c => (c.write q.dialect).params := by
  rw [bound_eq, bound_eq]
  exact List.flatMap_append

theorem Operation.run_bound {op : Operation} {q q' : Query} (h : op.run q = .ok q') :
    q'.bound = q.bound ++ op.bound := by
  cases op with
  | filter pairs =>
    obtain ⟨cs, hcs, rfl⟩ := Except.map_eq_ok.mp h
    rw [Query.bound_addConditions, Condition.params_ofPairs hcs, bound]
  | exclude pairs =>
    obtain ⟨cs, hcs, rfl⟩ := Except.map_eq_ok.mp h
    rw [Query.bound_addConditions, List.flatMap_map]
    simp only [Condition.params_not]
    rw [Condition.params_ofPairs hcs, bound]
  | search field needle =>
    simp only [run, Query.search] at h
    rw [bound]
    split at h
    · obtain rfl := Except.ok.inj h
      rw [if_pos ‹_›, List.append_nil]
    · obtain ⟨c, hc, rfl⟩ := Except.map_eq_ok.mp h
      rw [if_neg ‹_›, Query.bound_addConditions, List.flatMap_singleton,
        Condition.params_ofLookup hc]
  | order specs =>
    obtain ⟨terms, -, rfl⟩ := Except.map_eq_ok.mp h
    exact (List.append_nil _).symm
  | groupBy fields =>
    obtain ⟨columns, -, rfl⟩ := Except.map_eq_ok.mp h
    split <;> exact (List.append_nil _).symm
  | limit n | offset n | slice start stop | paginate page size =>
    obtain rfl := Except.ok.inj h
    exact (List.append_nil _).symm

/-- A chain binds what its calls bind, in their order. -/
theorem Query.chain_bound {q q' : Query} {ops : List Operation} (h : q.chain ops = .ok q') :
    q'.bound = q.bound ++ ops.flatMap Operation.bound := by
  induction ops generalizing q with
  | nil =>
    obtain rfl := Except.ok.inj h
    exact (List.append_nil _).symm
  | cons op rest ih =>
    obtain ⟨next, hnext, h⟩ := chain_cons_ok.mp h
    rw [ih h, Operation.run_bound hnext, List.flatMap_cons, List.append_assoc]

/-! ### Statements -/

/-- A statement of a query. Where `first` and `get` bound or filter the query further, it is the
SELECT of a query behind a longer chain that they send. -/
inductive Query.Issues (q : Query) : Fragment → Prop
  | select : Issues q q.select
  | count : Issues q q.countStatement
  | delete {f : Fragment} (h : q.deleteStatement = .ok f) : Issues q f
  | update {pairs : List (String × Value)} {f : Fragment} (h : q.updateStatement pairs = .ok f) :
    Issues q f

/-- A statement that is sent to a table: one of a query of the table behind a chain of calls, or an
insertion, which stands behind no call. -/
inductive Sent : List Operation → Fragment → Prop
  | query {d : Dialect} {table : String} {q q' : Query} {ops : List Operation} {f : Fragment}
    (hq : Query.ofTable d table = .ok q) (hops : q.chain ops = .ok q') (h : q'.Issues f) :
    Sent ops f
  | insert {d : Dialect} {table : String} {cells : List (String × Value)} {f : Fragment}
    (h : Table.insertStatement d table cells = .ok f) : Sent [] f
  | insertMany {d : Dialect} {table : String} {first : Row} {rows : List Row} {sql : String}
    {batches : List (List Value)} {params : List Value}
    (h : Table.insertManyStatement d table first rows = .ok (sql, batches))
    (hparams : params ∈ batches) : Sent [] ⟨sql, params⟩

namespace Clauses.OnTable

variable {name : QualifiedName} {c : Clauses}

theorem params_writeFiltered (hc : c.OnTable name) (d : Dialect) :
    (c.writeFiltered d).params = (c.writeConditions d).params := by
  have hgroup : c.writeGroup.params = [] := by
    rw [writeGroup]
    cases hg : c.groupBy with
    | none => rfl
    | some g =>
      obtain ⟨columns, -, rfl⟩ := hc.groupBy g hg
      rfl
  rw [writeFiltered, Fragment.params_append, Fragment.params_append, hgroup, hc.head,
    Fragment.params_ofText, List.nil_append, List.append_nil]

theorem params_writeOrder (hc : c.OnTable name) : c.writeOrder.params = [] := by
  rw [writeOrder, Fragment.params_series, List.flatMap_eq_nil_iff]
  intro t ht
  obtain ⟨k, s, -, rfl⟩ := hc.orderBy t ht
  rfl

end Clauses.OnTable

/-! ### Lists -/

def HasList (vs : List Value) : Prop :=
  ∃ v ∈ vs, v.kind = .list

section

variable {α : Type}

theorem not_hasList_nil : ¬ HasList [] := by
  simp [HasList]

theorem hasList_singleton {v : Value} : HasList [v] ↔ v.kind = .list := by
  simp [HasList]

theorem hasList_append {vs ws : List Value} : HasList (vs ++ ws) ↔ HasList vs ∨ HasList ws := by
  simp [HasList, or_and_right, exists_or]

theorem hasList_flatMap {xs : List α} {f : α → List Value} :
    HasList (xs.flatMap f) ↔ ∃ x ∈ xs, HasList (f x) := by
  constructor
  · rintro ⟨v, hv, hlist⟩
    obtain ⟨x, hx, hv⟩ := List.mem_flatMap.mp hv
    exact ⟨x, hx, v, hv, hlist⟩
  · rintro ⟨x, hx, v, hv, hlist⟩
    exact ⟨v, List.mem_flatMap.mpr ⟨x, hx, hv⟩, hlist⟩

theorem Value.kind_toStorage (v : Value) : v.toStorage.kind ≠ .list := by
  intro hlist
  rw [toStorage_eq] at hlist
  split at hlist
  · cases hlist
  · cases v with
    | list items => exact absurd rfl ‹_›
    | null | bool _ | int _ | float _ | text _ | blob _ | timestamp _ | json _ => cases hlist

/-- No value is stored as a list. -/
theorem not_hasList_stored (xs : List α) (f : α → Value) :
    ¬ HasList (xs.map fun x => (f x).toStorage) := by
  rintro ⟨v, hv, hlist⟩
  obtain ⟨x, -, rfl⟩ := List.mem_map.mp hv
  exact (f x).kind_toStorage hlist

end

/-- Bounds are bound as integers. -/
theorem Dialect.kind_of_mem_bounds (d : Dialect) (b : Bounds) (ordered : Bool) :
    ∀ v ∈ (d.bounds b ordered).params, v.kind = .int := by
  obtain ⟨limit, offset⟩ := b
  cases d <;> cases limit <;> cases offset <;>
    simp [bounds, bound, bound?, Bounds.isUnbounded, Placeholder.bind, ofText, Fragment.empty,
      Value.kind]

theorem Dialect.not_hasList_bounds (d : Dialect) (b : Bounds) (ordered : Bool) :
    ¬ HasList (d.bounds b ordered).params := by
  rintro ⟨v, hv, hlist⟩
  rw [d.kind_of_mem_bounds b ordered v hv] at hlist
  cases hlist

/-- A statement of a table binds what the conditions bind, and around it no list: bounds are
integers, and assigned values are stored ones. -/
theorem Query.Issues.params_eq {q : Query} {f : Fragment} {name : QualifiedName}
    (hq : q.clauses.OnTable name) (h : q.Issues f) :
    ∃ before after, f.params = before ++ q.bound ++ after ∧ ¬ HasList before ∧ ¬ HasList after := by
  cases h with
  | select =>
    refine ⟨[], _, ?_, not_hasList_nil,
      q.dialect.not_hasList_bounds q.clauses.bounds (!q.clauses.orderBy.isEmpty)⟩
    rw [Query.select, Clauses.select, Fragment.params_append, Fragment.params_append,
      hq.params_writeFiltered, hq.params_writeOrder, List.append_nil, List.nil_append, bound]
  | count =>
    refine ⟨[], [], ?_, not_hasList_nil, not_hasList_nil⟩
    rw [countStatement, Clauses.count, Fragment.params_append, Fragment.params_append,
      hq.params_writeFiltered]
    rfl
  | delete h =>
    rw [deleteStatement, Clauses.delete] at h
    split at h
    · cases h
    · obtain rfl := Except.ok.inj h
      exact ⟨[], [], (List.append_nil _).symm, not_hasList_nil, not_hasList_nil⟩
  | update h =>
    obtain ⟨assignments, h, -⟩ := updateStatement_ok h
    obtain ⟨table, -, -, rfl⟩ := Clauses.update_eq_join h
    refine ⟨assignments.map fun x => x.2.toStorage, [], ?_, not_hasList_stored _ _,
      not_hasList_nil⟩
    rw [Clauses.updatePieces, Piece.join, Piece.join_append, Piece.join_series,
      Clauses.join_conditionPieces, Fragment.params_append, Fragment.params_append,
      Fragment.params_series, List.flatMap_map, List.append_nil, List.map_eq_flatMap, bound]
    rfl

/-- Whether a lookup hands a list on to the database: an ordering whose operand is one, or a test
for membership in a list that has one among its items. -/
def Lookup.HandsList (lookup : Lookup) (operand : Value) : Prop :=
  match lookup with
  | .gt | .gte | .lt | .lte => operand.kind = .list
  | .oneOf => ∃ items, operand.asList? = some items ∧ HasList items
  | _ => False

def Operation.HandsList : Operation → Prop
  | .filter pairs | .exclude pairs => ∃ x ∈ pairs, (Key.parse x.1).lookup.HandsList x.2
  | _ => False

def Fragment.BindsList (f : Fragment) : Prop :=
  HasList f.params

theorem Value.exists_asList?_of_kind {v : Value} (h : v.kind = .list) :
    ∃ items, v.asList? = some items := by
  cases v with
  | list items => exact ⟨items, rfl⟩
  | null | bool _ | int _ | float _ | text _ | blob _ | timestamp _ | json _ => cases h

theorem Lookup.hasList_bound {lookup : Lookup} {operand : Value}
    (h : lookup.fault? operand = none) :
    HasList (lookup.bound operand) ↔ lookup.HandsList operand := by
  cases lookup with
  | exact =>
    -- A list is refused here, which is why none is bound.
    refine iff_of_false (fun hbound => ?_) id
    rw [bound] at hbound
    split at hbound
    · exact not_hasList_nil hbound
    · obtain ⟨items, hitems⟩ := Value.exists_asList?_of_kind (hasList_singleton.mp hbound)
      simp [fault?, hitems] at h
  | oneOf =>
    rw [bound, HandsList]
    cases hitems : operand.asList? with
    | none => simp [fault?, hitems] at h
    | some items => simp
  | isNull => exact iff_of_false not_hasList_nil id
  | gt | gte | lt | lte => exact hasList_singleton
  | startsWith | endsWith | contains | iContains | iStartsWith | iEndsWith =>
    refine iff_of_false (fun hbound => ?_) id
    simp only [bound] at hbound
    split at hbound
    · exact not_hasList_nil hbound
    · cases hasList_singleton.mp hbound

theorem hasList_of_ofPairs {pairs : List (String × Value)} {cs : List Condition}
    (h : Condition.ofPairs pairs = .ok cs) :
    HasList (pairs.flatMap fun x => (Key.parse x.1).lookup.bound x.2) ↔
      ∃ x ∈ pairs, (Key.parse x.1).lookup.HandsList x.2 := by
  rw [hasList_flatMap]
  refine exists_congr fun x => and_congr_right fun hx => Lookup.hasList_bound ?_
  obtain ⟨c, -, hc⟩ := exists_of_forall₂_left (forall₂_of_mapM_ok h) hx
  obtain ⟨i, -, hc⟩ := Condition.ofLookup_ok hc
  rw [← Condition.failure?_ofOperand i, hc, failure?]

theorem Operation.hasList_bound {op : Operation} {q q' : Query} (h : op.run q = .ok q') :
    HasList op.bound ↔ op.HandsList := by
  cases op with
  | filter pairs | exclude pairs =>
    obtain ⟨cs, hcs, -⟩ := Except.map_eq_ok.mp h
    exact hasList_of_ofPairs hcs
  | search field needle =>
    rw [bound]
    split
    · exact iff_of_false not_hasList_nil id
    · exact Lookup.hasList_bound rfl
  | order _ | groupBy _ | limit _ | offset _ | slice _ _ | paginate _ _ =>
    exact iff_of_false not_hasList_nil id

/-- The calls on a query of a table bind a list if and only if one of them hands a list on. -/
theorem Query.hasList_bound {d : Dialect} {table : String} {q q' : Query} {ops : List Operation}
    (hq : Query.ofTable d table = .ok q) (h : q.chain ops = .ok q') :
    HasList q'.bound ↔ ∃ op ∈ ops, op.HandsList := by
  have hbound : q'.bound = ops.flatMap Operation.bound := by
    obtain ⟨name, -, rfl⟩ := ofTable_ok hq
    exact chain_bound h
  rw [hbound, hasList_flatMap]
  refine exists_congr fun op => and_congr_right fun hop => ?_
  obtain ⟨x, y, hrun⟩ := run_of_mem_chain h hop
  exact Operation.hasList_bound hrun

/-- A statement binds a list if and only if one of the calls before it hands one on, in an ordering
or among the items of a test for membership. What is assigned or inserted is never bound as a
list. -/
theorem Sent.bindsList_iff {ops : List Operation} {f : Fragment} (h : Sent ops f) :
    f.BindsList ↔ ∃ op ∈ ops, op.HandsList := by
  cases h with
  | query hq hops h =>
    obtain ⟨-, name, htable⟩ := Query.chain_onTable hq hops
    obtain ⟨before, after, hparams, hbefore, hafter⟩ := h.params_eq htable
    rw [Fragment.BindsList, hparams, hasList_append, hasList_append, ← Query.hasList_bound hq hops]
    simp only [hbefore, hafter, false_or, or_false]
  | insert h =>
    obtain ⟨name, columns, -, -, -, rfl⟩ := Table.insertStatement_ok h
    exact iff_of_false (not_hasList_stored _ _) (by simp)
  | insertMany h hparams =>
    obtain ⟨-, -, -, -, -, -, hbatches⟩ := Table.insertManyStatement_ok h
    obtain ⟨row, -, -, rfl⟩ := exists_of_forall₂ hbatches hparams
    exact iff_of_false (not_hasList_stored _ _) (by simp)

/-- A JSON array among the items of a JSON array, in the condition of an assignment of a list. -/
theorem Sent.bindsList_iff_of_nested :
    let nested := Json.array [.array [.text "x"], .null]
    let ops := [Operation.search "b" "y", .exclude [("a__in", .json nested)], .limit 3]
    ∃ f, Sent ops f ∧
      f = ⟨"UPDATE \"t\" SET \"c\" = ? WHERE UPPER(\"b\") LIKE UPPER(?) ESCAPE '\\' AND " ++
          "NOT (\"a\" IN (?, ?))",
        [.text "[null]", .text "%y%", .list [.text "x"], .null]⟩ ∧
      f.BindsList ∧ ∃ op ∈ ops, op.HandsList := by
  intro nested ops
  obtain ⟨q, q', f, hq, hops, hf, htext⟩ : ∃ q q' f, Query.ofTable .sqlite "t" = .ok q ∧
      q.chain ops = .ok q' ∧ q'.updateStatement [("c", .list [.null])] = .ok f ∧
      f = ⟨"UPDATE \"t\" SET \"c\" = ? WHERE UPPER(\"b\") LIKE UPPER(?) ESCAPE '\\' AND " ++
          "NOT (\"a\" IN (?, ?))",
        [.text "[null]", .text "%y%", .list [.text "x"], .null]⟩ :=
    ⟨⟨.sqlite, ⟨.ofText "SELECT * FROM \"t\"", [], none, [], {}⟩⟩, _, _, by rfl, by rfl, by rfl,
      by rfl⟩
  have hsent : Sent ops f := .query hq hops (.update hf)
  have hhands : ∃ op ∈ ops, op.HandsList := by
    have hlookup : (Key.parse "a__in").lookup = .oneOf := by rfl
    refine ⟨_, List.mem_cons_of_mem _ List.mem_cons_self, _, List.mem_cons_self, ?_⟩
    rw [hlookup]
    exact ⟨[.list [.text "x"], .null], rfl, _, List.mem_cons_self, rfl⟩
  exact ⟨f, hsent, htext, hsent.bindsList_iff.mpr hhands, hhands⟩

/-- An ordering binds a list as it is, where equality refuses it. -/
theorem Sent.ordering_binds_list :
    ∃ q q', Query.ofTable .sqlite "t" = .ok q ∧
      q.chain [.filter [("a__gt", .list [.int 1, .int 2])]] = .ok q' ∧
      q'.select = ⟨"SELECT * FROM \"t\" WHERE \"a\" > ?", [.list [.int 1, .int 2]]⟩ ∧
      q.chain [.filter [("a", .list [.int 1, .int 2])]] =
        .error (.invalidLookup "a" .exact .listForExact) :=
  ⟨⟨.sqlite, ⟨.ofText "SELECT * FROM \"t\"", [], none, [], {}⟩⟩, _, by rfl, by rfl, by rfl, by rfl⟩

end QueryChain
