import QueryChain.Proofs.Insertion

/-!
What the text of a statement depends on. Two chains whose operands have the same shapes lead to
queries that look alike: the same sections up to parameters, and bounds on the same sides. Such
queries are written in the same text.
-/

namespace QueryChain

/-! ### Shapes of operands -/

/-- Whether two operands have the same shape for a lookup. The lookups that compare take every
operand alike. -/
def Lookup.SameShape (a b : Value) : Lookup → Prop
  | .oneOf => a.asList?.map List.length = b.asList?.map List.length
  | .isNull => a.isTruthy = b.isTruthy
  | .gt | .gte | .lt | .lte => True
  | .exact | .startsWith | .endsWith | .contains | .iContains | .iStartsWith | .iEndsWith =>
    a.isNull = b.isNull

def SamePredicate (x y : String × Value) : Prop :=
  x.1 = y.1 ∧ (Key.parse x.1).lookup.SameShape x.2 y.2

/-- Whether two operations differ in operands of the same shape, or in numbers, alone. -/
inductive Operation.SameShape : Operation → Operation → Prop
  | filter {xs ys : List (String × Value)} (h : List.Forall₂ SamePredicate xs ys) :
      SameShape (.filter xs) (.filter ys)
  | exclude {xs ys : List (String × Value)} (h : List.Forall₂ SamePredicate xs ys) :
      SameShape (.exclude xs) (.exclude ys)
  | search {field a b : String} (h : a.isEmpty = b.isEmpty) :
      SameShape (.search field a) (.search field b)
  | order (specs : List String) : SameShape (.order specs) (.order specs)
  | groupBy (fields : List String) : SameShape (.groupBy fields) (.groupBy fields)
  | limit (n m : Int64) : SameShape (.limit n) (.limit m)
  | offset (n m : Int64) : SameShape (.offset n) (.offset m)
  | slice (start stop start' stop' : Int64) : SameShape (.slice start stop) (.slice start' stop')
  | paginate (page size page' size' : Int64) :
      SameShape (.paginate page size) (.paginate page' size')

/-! ### Conditions -/

namespace Condition

def LooksLike (x y : Condition) : Prop :=
  ∀ d, (x.write d).sql = (y.write d).sql

theorem looksLike_refl (x : Condition) : x.LooksLike x :=
  fun _ => rfl

theorem LooksLike.not {x y : Condition} (h : x.LooksLike y) :
    (Condition.not x).LooksLike (.not y) := by
  intro d
  rw [write, write, Fragment.sql_append, Fragment.sql_append, h d]
  rfl

theorem oneOf_looksLike (field : Identifier) {xs ys : List Value} (h : xs.length = ys.length) :
    (Condition.oneOf field xs).LooksLike (.oneOf field ys) := by
  intro d
  have hmarks : xs.map (fun _ => d.placeholder.token) = ys.map fun _ => d.placeholder.token := by
    rw [List.map_const', List.map_const', h]
  simp only [write, Fragment.sql_append, Placeholder.sql_bindAll, hmarks]

theorem like_looksLike (field : Identifier) (ignoreCase : Bool) (a b : String) :
    (Condition.like field ignoreCase a).LooksLike (.like field ignoreCase b) :=
  fun _ => rfl

theorem ofOperand_looksLike {field : Identifier} {lookup : Lookup} {a b : Value} {x y : Condition}
    (hx : ofOperand field lookup a = .ok x) (hy : ofOperand field lookup b = .ok y)
    (h : lookup.SameShape a b) : x.LooksLike y := by
  cases lookup with
  | exact =>
    have hnull : a.isNull = b.isNull := h
    -- The operands are null together.
    obtain ⟨ha, rfl⟩ | ⟨ha, rfl⟩ := exact_ok hx <;>
      obtain ⟨hb, rfl⟩ | ⟨hb, rfl⟩ := exact_ok hy
    · exact looksLike_refl _
    · cases (ha.symm.trans hnull).trans hb
    · cases (ha.symm.trans hnull).trans hb
    · exact fun d => rfl
  | oneOf =>
    have hlength : a.asList?.map List.length = b.asList?.map List.length := h
    obtain ⟨xs, hxs, rfl⟩ := oneOf_ok hx
    obtain ⟨ys, hys, rfl⟩ := oneOf_ok hy
    rw [hxs, hys] at hlength
    have hsame : xs.length = ys.length := Option.some.inj hlength
    have hempty : xs.isEmpty = ys.isEmpty := by
      rw [Bool.eq_iff_iff, List.isEmpty_iff_length_eq_zero, List.isEmpty_iff_length_eq_zero, hsame]
    rw [hempty]
    split
    · exact looksLike_refl _
    · exact oneOf_looksLike field hsame
  | isNull =>
    have htruthy : a.isTruthy = b.isTruthy := h
    obtain rfl := Except.ok.inj hx
    obtain rfl := Except.ok.inj hy
    rw [htruthy]
    exact looksLike_refl _
  | gt | gte | lt | lte =>
    obtain rfl := Except.ok.inj hx
    obtain rfl := Except.ok.inj hy
    exact fun d => rfl
  | startsWith | endsWith | contains | iContains | iStartsWith | iEndsWith =>
    have hnull : a.isNull = b.isNull := h
    obtain rfl := Except.ok.inj hx
    obtain rfl := Except.ok.inj hy
    rw [hnull]
    split
    · exact looksLike_refl _
    · exact like_looksLike field _ _ _

theorem ofLookup_looksLike {field : String} {lookup : Lookup} {a b : Value} {x y : Condition}
    (hx : ofLookup field lookup a = .ok x) (hy : ofLookup field lookup b = .ok y)
    (h : lookup.SameShape a b) : x.LooksLike y := by
  obtain ⟨i, hi, hx⟩ := ofLookup_ok hx
  obtain ⟨j, hj, hy⟩ := ofLookup_ok hy
  obtain rfl := Except.ok.inj (hi.symm.trans hj)
  exact ofOperand_looksLike hx hy h

theorem ofPairs_looksLike {xs ys : List (String × Value)} {cs es : List Condition}
    (h : List.Forall₂ SamePredicate xs ys) (hcs : ofPairs xs = .ok cs) (hes : ofPairs ys = .ok es) :
    List.Forall₂ LooksLike cs es := by
  replace hcs := forall₂_of_mapM_ok hcs
  replace hes := forall₂_of_mapM_ok hes
  induction h generalizing cs es with
  | nil =>
    cases hcs
    cases hes
    exact .nil
  | @cons x y xs ys hxy _ ih =>
    obtain ⟨key, a⟩ := x
    obtain ⟨key', b⟩ := y
    obtain ⟨rfl, hshape⟩ := hxy
    cases hcs with
    | cons hc hcs =>
      cases hes with
      | cons he hes => exact .cons (ofLookup_looksLike hc he hshape) (ih hcs hes)

end Condition

/-! ### Bounds -/

namespace Bounds

-- Two windows are never compared as they are: that would compare their numbers.
theorem isSome_slice (start stop : Int64) (b : Bounds) :
    (b.slice start stop).limit.isSome = true ∧ (b.slice start stop).offset.isSome = true :=
  ⟨rfl, rfl⟩

theorem isSome_paginate (page size : Int64) (b : Bounds) :
    (b.paginate page size).limit.isSome = true ∧ (b.paginate page size).offset.isSome = true :=
  ⟨rfl, rfl⟩

end Bounds

/-! ### Queries that look alike -/

/-- Whether two queries have one dialect, head, grouping and order, conditions of the same text, and
bounds on the same sides. -/
structure Query.LooksLike (q r : Query) : Prop where
  dialect : q.dialect = r.dialect
  head : q.clauses.head = r.clauses.head
  conditions : List.Forall₂ Condition.LooksLike q.clauses.conditions r.clauses.conditions
  groupBy : q.clauses.groupBy = r.clauses.groupBy
  orderBy : q.clauses.orderBy = r.clauses.orderBy
  limit : q.clauses.bounds.limit.isSome = r.clauses.bounds.limit.isSome
  offset : q.clauses.bounds.offset.isSome = r.clauses.bounds.offset.isSome

namespace Query.LooksLike

variable {q r : Query}

theorem refl (q : Query) : q.LooksLike q :=
  ⟨rfl, rfl, List.forall₂_same.mpr fun x _ => x.looksLike_refl, rfl, rfl, rfl, rfl⟩

theorem addConditions (h : q.LooksLike r) {cs es : List Condition}
    (hcs : List.Forall₂ Condition.LooksLike cs es) :
    (q.mapClauses (·.addConditions cs)).LooksLike (r.mapClauses (·.addConditions es)) :=
  { h with conditions := List.rel_append h.conditions hcs }

theorem mapBounds (h : q.LooksLike r) {f g : Bounds → Bounds}
    (hlimit : (f q.clauses.bounds).limit.isSome = (g r.clauses.bounds).limit.isSome)
    (hoffset : (f q.clauses.bounds).offset.isSome = (g r.clauses.bounds).offset.isSome) :
    (q.mapBounds f).LooksLike (r.mapBounds g) :=
  { h with limit := hlimit, offset := hoffset }

/-- Operations of the same shape keep queries alike. -/
theorem run (h : q.LooksLike r) {op op' : Operation} (hop : op.SameShape op') {q' r' : Query}
    (hq : op.run q = .ok q') (hr : op'.run r = .ok r') : q'.LooksLike r' := by
  cases hop with
  | filter hpairs =>
    obtain ⟨cs, hcs, rfl⟩ := Except.map_eq_ok.mp hq
    obtain ⟨es, hes, rfl⟩ := Except.map_eq_ok.mp hr
    exact h.addConditions (Condition.ofPairs_looksLike hpairs hcs hes)
  | exclude hpairs =>
    obtain ⟨cs, hcs, rfl⟩ := Except.map_eq_ok.mp hq
    obtain ⟨es, hes, rfl⟩ := Except.map_eq_ok.mp hr
    apply h.addConditions
    rw [List.forall₂_map_left_iff, List.forall₂_map_right_iff]
    exact (Condition.ofPairs_looksLike hpairs hcs hes).imp fun x y hxy => hxy.not
  | @search field a b hempty =>
    simp only [Operation.run, Query.search, hempty] at hq hr
    split at hq
    · rw [if_pos ‹_›] at hr
      obtain rfl := Except.ok.inj hq
      obtain rfl := Except.ok.inj hr
      exact h
    · rw [if_neg ‹_›] at hr
      obtain ⟨c, hc, rfl⟩ := Except.map_eq_ok.mp hq
      obtain ⟨e, he, rfl⟩ := Except.map_eq_ok.mp hr
      have hneedle : Lookup.iContains.SameShape (.text a) (.text b) := rfl
      exact h.addConditions (.cons (Condition.ofLookup_looksLike hc he hneedle) .nil)
  | order specs =>
    obtain ⟨terms, hterms, rfl⟩ := Except.map_eq_ok.mp hq
    obtain ⟨terms', hterms', rfl⟩ := Except.map_eq_ok.mp hr
    obtain rfl := Except.ok.inj (hterms.symm.trans hterms')
    exact { h with orderBy := congrArg (· ++ _) h.orderBy }
  | groupBy fields =>
    obtain ⟨columns, hcolumns, rfl⟩ := Except.map_eq_ok.mp hq
    obtain ⟨columns', hcolumns', rfl⟩ := Except.map_eq_ok.mp hr
    obtain rfl := Except.ok.inj (hcolumns.symm.trans hcolumns')
    by_cases hempty : columns.isEmpty = true
    · rw [if_pos hempty, if_pos hempty]
      exact h
    · rw [if_neg hempty, if_neg hempty]
      exact { h with groupBy := rfl }
  | limit n m =>
    obtain rfl := Except.ok.inj hq
    obtain rfl := Except.ok.inj hr
    exact h.mapBounds rfl h.offset
  | offset n m =>
    obtain rfl := Except.ok.inj hq
    obtain rfl := Except.ok.inj hr
    exact h.mapBounds h.limit rfl
  | slice start stop start' stop' =>
    obtain rfl := Except.ok.inj hq
    obtain rfl := Except.ok.inj hr
    obtain ⟨hlimit, hoffset⟩ := q.clauses.bounds.isSome_slice start stop
    obtain ⟨hlimit', hoffset'⟩ := r.clauses.bounds.isSome_slice start' stop'
    exact h.mapBounds (hlimit.trans hlimit'.symm) (hoffset.trans hoffset'.symm)
  | paginate page size page' size' =>
    obtain rfl := Except.ok.inj hq
    obtain rfl := Except.ok.inj hr
    obtain ⟨hlimit, hoffset⟩ := q.clauses.bounds.isSome_paginate page size
    obtain ⟨hlimit', hoffset'⟩ := r.clauses.bounds.isSome_paginate page' size'
    exact h.mapBounds (hlimit.trans hlimit'.symm) (hoffset.trans hoffset'.symm)

/-- Chains of operations of the same shapes keep queries alike. -/
theorem chain (h : q.LooksLike r) {ops ops' : List Operation}
    (hops : List.Forall₂ Operation.SameShape ops ops') {q' r' : Query}
    (hq : q.chain ops = .ok q') (hr : r.chain ops' = .ok r') : q'.LooksLike r' := by
  induction hops generalizing q r with
  | nil =>
    obtain rfl := Except.ok.inj hq
    obtain rfl := Except.ok.inj hr
    exact h
  | cons hop _ ih =>
    obtain ⟨next, hnext, hq⟩ := Query.chain_cons_ok.mp hq
    obtain ⟨next', hnext', hr⟩ := Query.chain_cons_ok.mp hr
    exact ih (h.run hop hnext hnext') hq hr

end Query.LooksLike

/-! ### Texts of assembled statements -/

theorem Fragment.sql_series_congr {lead sep : String} {fs gs : List Fragment}
    (h : fs.map sql = gs.map sql) : (series lead sep fs).sql = (series lead sep gs).sql := by
  cases fs with
  | nil =>
    obtain rfl := List.map_eq_nil_iff.mp h.symm
    rfl
  | cons f fs =>
    cases gs with
    | nil => cases h
    | cons g gs => rw [sql_series_cons, sql_series_cons, h]

theorem Dialect.sql_bounds_congr (d : Dialect) {b e : Bounds}
    (hlimit : b.limit.isSome = e.limit.isSome) (hoffset : b.offset.isSome = e.offset.isSome)
    (ordered : Bool) : (d.bounds b ordered).sql = (d.bounds e ordered).sql := by
  obtain ⟨limit, offset⟩ := b
  obtain ⟨limit', offset'⟩ := e
  cases limit <;> cases limit' <;> cases hlimit <;> cases offset <;> cases offset' <;>
    cases hoffset <;> cases d <;> rfl

namespace Query.LooksLike

variable {q r : Query}

theorem sql_writeConditions (h : q.LooksLike r) (d : Dialect) :
    (q.clauses.writeConditions d).sql = (r.clauses.writeConditions d).sql := by
  apply Fragment.sql_series_congr
  rw [List.map_map, List.map_map]
  have hconditions := h.conditions
  generalize q.clauses.conditions = cs at hconditions ⊢
  generalize r.clauses.conditions = es at hconditions ⊢
  induction hconditions with
  | nil => rfl
  | cons hce _ ih =>
    rw [List.map_cons, List.map_cons, ih]
    exact congrArg (· :: _) (hce d)

theorem sql_writeFiltered (h : q.LooksLike r) (d : Dialect) :
    (q.clauses.writeFiltered d).sql = (r.clauses.writeFiltered d).sql := by
  simp only [Clauses.writeFiltered, Clauses.writeGroup, Fragment.sql_append, h.head, h.groupBy,
    h.sql_writeConditions d]

theorem sql_select (h : q.LooksLike r) : q.select.sql = r.select.sql := by
  simp only [Query.select, Clauses.select, Clauses.writeOrder, Fragment.sql_append, h.dialect,
    h.orderBy, h.sql_writeFiltered]
  rw [r.dialect.sql_bounds_congr h.limit h.offset]

theorem sql_count (h : q.LooksLike r) : q.countStatement.sql = r.countStatement.sql := by
  simp only [Query.countStatement, Clauses.count, Fragment.sql_append, h.dialect,
    h.sql_writeFiltered]

theorem target (h : q.LooksLike r) : q.clauses.target = r.clauses.target := by
  rw [Clauses.target, h.head]
  rfl

theorem sql_delete (h : q.LooksLike r) :
    q.deleteStatement.map Fragment.sql = r.deleteStatement.map Fragment.sql := by
  rw [Query.deleteStatement, Query.deleteStatement, Clauses.delete, Clauses.delete, h.target,
    h.dialect]
  cases r.clauses.target with
  | error e => rfl
  | ok table =>
    show Except.ok _ = Except.ok _
    rw [Fragment.sql_append, Fragment.sql_append, h.sql_writeConditions]

/-- The text of an update depends on its columns alone. -/
theorem sql_update (h : q.LooksLike r) {xs ys : List (Identifier × Value)}
    (hcolumns : xs.map Prod.fst = ys.map Prod.fst) (d : Dialect) :
    (q.clauses.update d xs).map Fragment.sql = (r.clauses.update d ys).map Fragment.sql := by
  rw [Clauses.update, Clauses.update, h.target]
  cases r.clauses.target with
  | error e => rfl
  | ok table =>
    have hempty : xs.isEmpty = ys.isEmpty := by
      rw [← List.isEmpty_map (f := Prod.fst), hcolumns, List.isEmpty_map]
    have hsets : (xs.map fun x => Clauses.writeAssignment d x.1 x.2).map Fragment.sql =
        (ys.map fun y => Clauses.writeAssignment d y.1 y.2).map Fragment.sql := by
      have hwrite (zs : List (Identifier × Value)) :
          (zs.map fun z => Clauses.writeAssignment d z.1 z.2).map Fragment.sql =
            (zs.map Prod.fst).map fun column => column.sql ++ " = " ++ d.placeholder.token := by
        rw [List.map_map, List.map_map]
        rfl
      rw [hwrite, hwrite, hcolumns]
    dsimp only
    rw [hempty]
    split
    · rfl
    · show Except.ok _ = Except.ok _
      rw [Fragment.sql_append, Fragment.sql_append, Fragment.sql_append, Fragment.sql_append,
        Fragment.sql_series_congr hsets, h.sql_writeConditions]

/-- Checking the names of pairs and keeping their values fails as checking the names alone does. -/
theorem mapM_names {ε β : Type} (f : String → Except ε β) (pairs : List (String × Value)) :
    (pairs.mapM fun pair => (f pair.1).map (·, pair.2)).map (List.map Prod.fst) =
      (pairs.map Prod.fst).mapM f := by
  induction pairs with
  | nil => rfl
  | cons pair rest ih =>
    rw [List.map_cons, List.mapM_cons, List.mapM_cons, ← ih]
    cases f pair.1 with
    | error e => rfl
    | ok b => cases rest.mapM fun pair => (f pair.1).map (·, pair.2) <;> rfl

theorem sql_updateStatement (h : q.LooksLike r) {xs ys : List (String × Value)}
    (hnames : xs.map Prod.fst = ys.map Prod.fst) :
    (q.updateStatement xs).map Fragment.sql = (r.updateStatement ys).map Fragment.sql := by
  have hchecked := mapM_names Identifier.ofField xs
  rw [hnames, ← mapM_names Identifier.ofField ys] at hchecked
  rw [Query.updateStatement, Query.updateStatement]
  generalize xs.mapM (fun x => (Identifier.ofField x.1).map (·, x.2)) = m at hchecked ⊢
  generalize ys.mapM (fun y => (Identifier.ofField y.1).map (·, y.2)) = m' at hchecked ⊢
  -- The names are the same, so both checks fail alike or none does.
  cases m with
  | error e =>
    cases m' with
    | error e' =>
      obtain rfl := Except.error.inj hchecked
      rfl
    | ok as' => cases hchecked
  | ok as =>
    cases m' with
    | error e' => cases hchecked
    | ok as' =>
      dsimp only
      rw [h.dialect]
      exact h.sql_update (Except.ok.inj hchecked) r.dialect

end Query.LooksLike

namespace Table

/-- The text of an insertion depends on its columns alone. -/
theorem sql_insertStatement (d : Dialect) (table : String) {xs ys : List (String × Value)}
    (hnames : xs.map Prod.fst = ys.map Prod.fst) :
    (insertStatement d table xs).map Fragment.sql =
      (insertStatement d table ys).map Fragment.sql := by
  have hinsert (zs : List (String × Value)) : (insertStatement d table zs).map Fragment.sql =
      (QualifiedName.parse table).bind fun name =>
        ((zs.map Prod.fst).mapM QualifiedName.parse).bind fun columns =>
          if columns.isEmpty then .error (.malformedQuery .noInsertColumn)
          else .ok (insertSql d name columns) := by
    rw [List.mapM_map]
    show Except.map Fragment.sql ((QualifiedName.parse table).bind fun name =>
      (zs.mapM (QualifiedName.parse ∘ Prod.fst)).bind fun columns =>
        if columns.isEmpty then .error (.malformedQuery .noInsertColumn)
        else .ok ⟨insertSql d name columns, zs.map fun z => z.2.toStorage⟩) = _
    cases QualifiedName.parse table with
    | error e => rfl
    | ok name =>
      dsimp only [Except.bind]
      cases zs.mapM (QualifiedName.parse ∘ Prod.fst) with
      | error e => rfl
      | ok columns =>
        dsimp only
        split <;> rfl
  rw [hinsert, hinsert, hnames]

theorem batches_shape (expected : List String) (index : Nat) {xs ys : List Row}
    (hcolumns : xs.map Row.columns = ys.map Row.columns) :
    (batches expected index xs).map (fun _ => ()) =
      (batches expected index ys).map fun _ => () := by
  induction xs generalizing index ys with
  | nil =>
    obtain rfl := List.map_eq_nil_iff.mp hcolumns.symm
    rfl
  | cons x xs ih =>
    cases ys with
    | nil => cases hcolumns
    | cons y ys =>
      obtain ⟨hxy, hrest⟩ := List.cons.inj hcolumns
      have h := ih (index + 1) hrest
      rw [batches, batches, hxy]
      split
      · rfl
      · cases hx : batches expected (index + 1) xs with
        | error e =>
          cases hy : batches expected (index + 1) ys with
          | error e' =>
            rw [hx, hy] at h
            obtain rfl := Except.error.inj h
            rfl
          | ok more => rw [hx, hy] at h; cases h
        | ok more =>
          cases hy : batches expected (index + 1) ys with
          | error e' => rw [hx, hy] at h; cases h
          | ok more' => rfl

theorem sql_insertManyStatement (d : Dialect) (table : String) {x y : Row} {xs ys : List Row}
    (hfirst : x.columns = y.columns) (hcolumns : xs.map Row.columns = ys.map Row.columns) :
    (insertManyStatement d table x xs).map Prod.fst =
      (insertManyStatement d table y ys).map Prod.fst := by
  have hinsert (z : Row) (zs : List Row) : (insertManyStatement d table z zs).map Prod.fst =
      (QualifiedName.parse table).bind fun name =>
        (z.columns.mapM QualifiedName.parse).bind fun columns =>
          if columns.isEmpty then .error (.malformedQuery .noInsertColumn)
          else
            ((batches z.columns 0 zs).map fun _ => ()).map fun _ => insertSql d name columns := by
    show Except.map Prod.fst ((QualifiedName.parse table).bind fun name =>
      (z.columns.mapM QualifiedName.parse).bind fun columns =>
        if columns.isEmpty then .error (.malformedQuery .noInsertColumn)
        else (batches z.columns 0 zs).map (insertSql d name columns, ·)) = _
    cases QualifiedName.parse table with
    | error e => rfl
    | ok name =>
      dsimp only [Except.bind]
      cases z.columns.mapM QualifiedName.parse with
      | error e => rfl
      | ok columns =>
        dsimp only
        split
        · rfl
        · cases batches z.columns 0 zs <;> rfl
  rw [hinsert, hinsert, hfirst, batches_shape y.columns 0 hcolumns]

end Table

/-- The text of every statement depends on the shapes of operands and on columns alone. Two chains
of operations of the same shapes on one query lead to the same texts. -/
theorem Query.chain_text_of_shape {q q₁ q₂ : Query} {ops ops' : List Operation}
    (hops : List.Forall₂ Operation.SameShape ops ops') (h₁ : q.chain ops = .ok q₁)
    (h₂ : q.chain ops' = .ok q₂) :
    q₁.select.sql = q₂.select.sql ∧
      q₁.countStatement.sql = q₂.countStatement.sql ∧
      q₁.deleteStatement.map Fragment.sql = q₂.deleteStatement.map Fragment.sql ∧
      (∀ xs ys : List (String × Value), xs.map Prod.fst = ys.map Prod.fst →
        (q₁.updateStatement xs).map Fragment.sql = (q₂.updateStatement ys).map Fragment.sql) ∧
      (∀ d table, ∀ xs ys : List (String × Value), xs.map Prod.fst = ys.map Prod.fst →
        (Table.insertStatement d table xs).map Fragment.sql =
          (Table.insertStatement d table ys).map Fragment.sql) ∧
      (∀ d table, ∀ (x y : Row) (xs ys : List Row), x.columns = y.columns →
        xs.map Row.columns = ys.map Row.columns →
        (Table.insertManyStatement d table x xs).map Prod.fst =
          (Table.insertManyStatement d table y ys).map Prod.fst) := by
  have h := (LooksLike.refl q).chain hops h₁ h₂
  refine ⟨h.sql_select, h.sql_count, h.sql_delete, ?_, ?_, ?_⟩
  · exact fun xs ys hnames => h.sql_updateStatement hnames
  · exact fun d table xs ys hnames => Table.sql_insertStatement d table hnames
  · exact fun d table x y xs ys hfirst hcolumns =>
      Table.sql_insertManyStatement d table hfirst hcolumns

/-- Two chains on one table with other values, other items and another window. -/
theorem Query.chain_text_of_other_values :
    ∃ q q₁ q₂, Query.ofTable .postgres "app.user" = .ok q ∧
      q.chain [.filter [("name__startswith", .text "a%"), ("age__in", .list [.int 1, .int 2])],
        .slice 0 10] = .ok q₁ ∧
      q.chain [.filter [("name__startswith", .int 5), ("age__in", .list [.null, .bool true])],
        .slice 7 3] = .ok q₂ ∧
      q₁.select.sql = q₂.select.sql := by
  have hstarts : (Key.parse "name__startswith").lookup = .startsWith := by decide
  have hin : (Key.parse "age__in").lookup = .oneOf := by decide
  have hops : List.Forall₂ Operation.SameShape
      [.filter [("name__startswith", .text "a%"), ("age__in", .list [.int 1, .int 2])],
        .slice 0 10]
      [.filter [("name__startswith", .int 5), ("age__in", .list [.null, .bool true])],
        .slice 7 3] := by
    refine .cons (.filter (.cons ⟨rfl, ?_⟩ (.cons ⟨rfl, ?_⟩ .nil))) (.cons (.slice ..) .nil)
    · dsimp only
      rw [hstarts]
      rfl
    · dsimp only
      rw [hin]
      rfl
  have hok₁ : ((Query.ofTable .postgres "app.user").bind
      (·.chain [.filter [("name__startswith", .text "a%"), ("age__in", .list [.int 1, .int 2])],
        .slice 0 10])).isOk = true := by
    decide +kernel
  have hok₂ : ((Query.ofTable .postgres "app.user").bind
      (·.chain [.filter [("name__startswith", .int 5), ("age__in", .list [.null, .bool true])],
        .slice 7 3])).isOk = true := by
    decide +kernel
  obtain ⟨q₁, hq₁⟩ := Except.exists_of_isOk hok₁
  obtain ⟨q₂, hq₂⟩ := Except.exists_of_isOk hok₂
  obtain ⟨q, hq, hchain₁⟩ := Except.bind_eq_ok.mp hq₁
  obtain ⟨q', hq', hchain₂⟩ := Except.bind_eq_ok.mp hq₂
  obtain rfl := Except.ok.inj (hq.symm.trans hq')
  exact ⟨q, q₁, q₂, hq, hchain₁, hchain₂, (chain_text_of_shape hops hchain₁ hchain₂).1⟩

end QueryChain
