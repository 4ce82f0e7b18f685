import QueryChain.Proofs.Chain
import QueryChain.Proofs.Truth
import QueryChain.Records.Selection
import QueryChain.Sqlite.Basic

/-!
Queries and selections that are restricted by the same calls. What a database makes of the
conditions of the query is what the selection makes of its predicates, as long as neither null nor
a list is compared. Where null is, the database knows no truth, while a selection always decides;
what is bound for a list has a place in the order of a database and none in a selection.
-/

namespace QueryChain

/-! ### Columns -/

/-- What the values of a column are that are not null. -/
inductive ColumnType
  | integer
  | text

namespace ColumnType

inductive Holds : ColumnType → Value → Prop
  | null (t : ColumnType) : Holds t .null
  | int (n : Int64) : Holds .integer (.int n)
  | text (s : String) : Holds .text (.text s)

/-- The operands of lookups on a column: its values, and lists of them. -/
inductive Takes (t : ColumnType) : Value → Prop
  | value {v : Value} : t.Holds v → t.Takes v
  | list {vs : List Value} : (∀ v ∈ vs, t.Holds v) → t.Takes (.list vs)

end ColumnType

/-! ### Values -/

/-- The order of stored integers and texts, in which all integers come before all texts. -/
def SqliteValue.order? : SqliteValue → SqliteValue → Option Ordering
  | .integer m, .integer n => some (compare m.toInt n.toInt)
  | .integer _, .text _ => some .lt
  | .text _, .integer _ => some .gt
  | .text s, .text t => some (compareOfLessAndEq s.toList t.toList)
  | _, _ => none

namespace Database

/-- A database of integers and texts that compares what is bound for the values, which is JSON text
for a list. -/
def sqlite : Database where
  truth c a b := (a.toSqlite.order? b.toSqlite).elim .unknown fun o => .ofBool (c.accepts o)

theorem isStandard_sqlite : sqlite.IsStandard where
  null_left _ _ := rfl
  null_right c a := by
    show (a.toSqlite.order? .null).elim Truth.unknown _ = .unknown
    cases a.toSqlite <;> rfl
  int _ _ _ := rfl
  text _ _ _ := rfl

end Database

/-- Texts are ordered by their code points. -/
theorem compareOfLessAndEq_toList (a b : String) :
    compareOfLessAndEq a.toList b.toList = compareOfLessAndEq a b := by
  simp only [compareOfLessAndEq, String.lt_iff, String.toList_inj]

theorem Value.isEqual_eq {a b : Value} (ha : a.isNull = false) (hb : b.isNull = false) :
    a.isEqual b = Predicate.orderMatches a b Comparison.eq.accepts := by
  rw [isEqual, Predicate.orderMatches, ha, hb]
  cases a.order b with
  | error e => rfl
  | ok o => cases o <;> rfl

namespace ColumnType.Holds

variable {db : Database} {t : ColumnType} {a b : Value}

theorem asList?_eq_none (h : t.Holds a) : a.asList? = none := by
  cases h <;> rfl

theorem coerce_eq (h : t.Holds a) (field : String) : ({} : Registry).coerce field a = a := by
  cases h <;> rfl

/-- Two values of a column are compared as a selection compares them, unless one is null. -/
theorem truth_eq (hdb : db.IsStandard) (ha : t.Holds a) (hb : t.Holds b) (c : Comparison) :
    db.truth c a b =
      if a.isNull || b.isNull then .unknown
      else .ofBool (Predicate.orderMatches a b c.accepts) := by
  cases ha with
  | null => exact hdb.null_left c b
  | int m =>
    cases hb with
    | null => exact hdb.null_right c _
    | int n => exact hdb.int c m n
  | text s =>
    cases hb with
    | null => exact hdb.null_right c _
    | text s' =>
      rw [hdb.text, compareOfLessAndEq_toList]
      rfl

theorem looselyEquals_eq (ha : t.Holds a) (hb : t.Holds b) :
    a.looselyEquals b =
      if a.isNull || b.isNull then a.isNull && b.isNull
      else Predicate.orderMatches a b Comparison.eq.accepts := by
  cases ha with
  | null => cases hb <;> rfl
  | int m =>
    cases hb with
    | null => rfl
    | int n => exact Value.isEqual_eq rfl rfl
  | text s =>
    cases hb with
    | null => rfl
    | text s' => exact Value.isEqual_eq rfl rfl

theorem truth_eq_yes (hdb : db.IsStandard) (ha : t.Holds a) (hb : t.Holds b) :
    db.truth .eq a b = .yes ↔ a.isNull = false ∧ a.looselyEquals b = true := by
  rw [ha.truth_eq hdb hb, ha.looselyEquals_eq hb]
  cases a.isNull <;> cases b.isNull <;> simp

theorem truth_eq_unknown (hdb : db.IsStandard) (ha : t.Holds a) (hb : t.Holds b) :
    db.truth .eq a b = .unknown ↔ a.isNull = true ∨ b.isNull = true := by
  rw [ha.truth_eq hdb hb]
  cases a.isNull <;> cases b.isNull <;> simp

end ColumnType.Holds

/-! ### Lookups -/

/-- Whether null is compared, so that no database knows if a value meets a lookup. -/
def Lookup.isUndecided (lookup : Lookup) (item operand : Value) : Bool :=
  match lookup, operand with
  | .exact, operand => item.isNull && !operand.isNull
  | .isNull, _ => false
  | .oneOf, .list items =>
    !items.isEmpty &&
      (item.isNull || (items.any Value.isNull && !items.any item.looselyEquals))
  | .oneOf, _ => false
  | _, operand => item.isNull || operand.isNull

def Lookup.order? : Lookup → Option Comparison
  | .gt => some .gt
  | .gte => some .gte
  | .lt => some .lt
  | .lte => some .lte
  | _ => none

def Lookup.listOrder? (lookup : Lookup) (operand : Value) : Option Comparison :=
  if operand.asList?.isSome then lookup.order? else none

/-- The truth of a predicate on a value for a database, where a selection finds it met or not. -/
def Predicate.truth (db : Database) (p : Predicate) (item : Value) (met : Bool) : Truth :=
  if p.lookup.isUndecided item p.operand then .unknown
  else
    match p.lookup.listOrder? p.operand with
    | some c => if p.negated then (db.truth c item p.operand).not else db.truth c item p.operand
    | none => .ofBool met

namespace ColumnType.Holds

variable {db : Database} {t : ColumnType} {a : Value}

/-- A list has an equal item, or one that is null, or neither. -/
theorem truthIn_eq (hdb : db.IsStandard) (ha : t.Holds a) {items : List Value}
    (hitems : ∀ v ∈ items, t.Holds v) (hne : items ≠ []) :
    db.truthIn a items =
      if Lookup.oneOf.isUndecided a (.list items) then .unknown
      else .ofBool (items.any a.looselyEquals) := by
  have hyes : .yes ∈ items.map (db.truth .eq a) ↔
      a.isNull = false ∧ items.any a.looselyEquals = true := by
    rw [List.mem_map, List.any_eq_true]
    constructor
    · rintro ⟨v, hv, htruth⟩
      obtain ⟨hnull, hequal⟩ := (ha.truth_eq_yes hdb (hitems v hv)).mp htruth
      exact ⟨hnull, v, hv, hequal⟩
    · rintro ⟨hnull, v, hv, hequal⟩
      exact ⟨v, hv, (ha.truth_eq_yes hdb (hitems v hv)).mpr ⟨hnull, hequal⟩⟩
  have hunknown : .unknown ∈ items.map (db.truth .eq a) ↔
      a.isNull = true ∨ items.any Value.isNull = true := by
    rw [List.mem_map, List.any_eq_true]
    constructor
    · rintro ⟨v, hv, htruth⟩
      have hnull := (ha.truth_eq_unknown hdb (hitems v hv)).mp htruth
      exact hnull.imp_right fun h => ⟨v, hv, h⟩
    · rintro (hnull | ⟨v, hv, hnull⟩)
      · obtain ⟨v, hv⟩ := List.exists_mem_of_ne_nil items hne
        exact ⟨v, hv, (ha.truth_eq_unknown hdb (hitems v hv)).mpr (.inl hnull)⟩
      · exact ⟨v, hv, (ha.truth_eq_unknown hdb (hitems v hv)).mpr (.inr hnull)⟩
  have hempty : items.isEmpty = false := List.isEmpty_eq_false_iff.mpr hne
  rw [Database.truthIn, Truth.any_eq, Lookup.isUndecided, hempty]
  simp only [hyes, hunknown]
  cases a.isNull <;> cases items.any Value.isNull <;> cases items.any a.looselyEquals <;> rfl

end ColumnType.Holds

/-- The condition of a lookup has on every row the truth that a database knows of the lookup. -/
theorem Condition.truth?_ofOperand {db : Database} (hdb : db.IsStandard) {i : Identifier}
    {lookup : Lookup} {operand : Value} {c : Condition} {t : ColumnType}
    (h : ofOperand i lookup operand = .ok c) (hlookup : lookup.isPattern = false)
    (hoperand : t.Takes operand) :
    Predicate.checkOperand lookup operand = .ok operand ∧
      ∀ row : String → Value, t.Holds (row i.name) → c.truth? db row =
        some (Predicate.truth db ⟨i.name, lookup, operand, false⟩ (row i.name)
          (Predicate.evaluate lookup (row i.name) operand operand)) := by
  cases lookup with
  | exact =>
    cases hoperand with
    | list _ => cases h
    | value hv =>
      refine ⟨by simp only [Predicate.checkOperand, hv.asList?_eq_none], ?_⟩
      intro row hrow
      obtain ⟨hnull, rfl⟩ | ⟨hnull, rfl⟩ := exact_ok h
      · simp [truth?, Predicate.truth, Lookup.isUndecided, Lookup.listOrder?, hv.asList?_eq_none,
          Predicate.evaluate, hnull]
      · rw [truth?, hrow.truth_eq hdb hv, Predicate.truth, Lookup.isUndecided, Lookup.listOrder?,
          hv.asList?_eq_none, Predicate.evaluate, hrow.looselyEquals_eq hv, hnull]
        cases (row i.name).isNull <;> simp
  | oneOf =>
    obtain ⟨vs, hvs, rfl⟩ := oneOf_ok h
    cases hoperand with
    | value hv =>
      rw [hv.asList?_eq_none] at hvs
      cases hvs
    | list hitems =>
      obtain rfl := Option.some.inj hvs
      refine ⟨rfl, ?_⟩
      intro row hrow
      rename_i vs
      cases vs with
      | nil => rfl
      | cons v vs =>
        rw [Predicate.truth, Predicate.evaluate]
        exact congrArg some (hrow.truthIn_eq hdb hitems (List.cons_ne_nil v vs))
  | isNull =>
    obtain rfl := Except.ok.inj h
    refine ⟨rfl, ?_⟩
    intro row hrow
    cases htruthy : operand.isTruthy <;>
      simp [truth?, Predicate.truth, Lookup.isUndecided, Lookup.listOrder?, Lookup.order?,
        Predicate.evaluate, htruthy]
  | gt | gte | lt | lte =>
    obtain rfl := Except.ok.inj h
    refine ⟨rfl, ?_⟩
    intro row hrow
    simp only [truth?]
    generalize row i.name = a at hrow
    cases hoperand with
    | list _ =>
      cases hrow with
      | null => rw [hdb.null_left]; rfl
      | int _ | text _ => rfl
    | value hv =>
      rw [hrow.truth_eq hdb hv]
      cases hv <;> simp [Predicate.truth, Lookup.isUndecided, Predicate.evaluate] <;> rfl
  | startsWith | endsWith | contains | iContains | iStartsWith | iEndsWith => cases hlookup

/-! ### Predicates -/

/-- A negated predicate has the opposite truth. -/
theorem Predicate.truth_not (db : Database) (field : String) (lookup : Lookup)
    (operand item : Value) (met : Bool) :
    (truth db ⟨field, lookup, operand, false⟩ item met).not =
      truth db ⟨field, lookup, operand, true⟩ item !met := by
  simp only [truth]
  split
  · rfl
  · split <;> simp

/-- Whether a condition says on every row what a predicate says, as far as a database knows. -/
structure Predicate.Mirrored (db : Database) (columns : String → ColumnType) (p : Predicate)
    (c : Condition) : Prop where
  operand : p.coercedOperand {} = p.operand
  truth : ∀ row : String → Value, (∀ field, (columns field).Holds (row field)) →
    c.truth? db row = some (p.truth db (row p.field)
      (evaluate p.lookup (row p.field) p.operand p.operand != p.negated))

/-- Whether the predicates of a call put one of the lookups by value on each column, with operands
that the column takes. -/
def Fits (columns : String → ColumnType) (pairs : List (String × Value)) : Prop :=
  ∀ x ∈ pairs, (Key.parse x.1).lookup.isPattern = false ∧
    (columns (Key.parse x.1).field).Takes x.2

variable {db : Database} {columns : String → ColumnType}

theorem ColumnType.Takes.coerced {t : ColumnType} {v : Value} (h : t.Takes v) (field : String)
    (lookup : Lookup) (negated : Bool) :
    Predicate.coercedOperand {} ⟨field, lookup, v, negated⟩ = v := by
  cases h with
  | value hv =>
    have hcoerce := hv.coerce_eq field
    cases hv <;> cases lookup <;> exact hcoerce
  | @list vs hvs =>
    have hmap : vs.map (({} : Registry).coerce field) = vs := by
      rw [List.map_congr_left (g := id) fun v hv => (hvs v hv).coerce_eq field, List.map_id]
    cases lookup with
    | oneOf => exact congrArg Value.list hmap
    | _ => rfl

theorem Predicate.ofKey_mirrored (hdb : db.IsStandard) {key : String} {operand : Value}
    {c : Condition} (h : Condition.ofKey key operand = .ok c)
    (hlookup : (Key.parse key).lookup.isPattern = false)
    (hoperand : (columns (Key.parse key).field).Takes operand) (negated : Bool) :
    ∃ p, ofKey negated key operand = .ok p ∧
      p.Mirrored db columns (if negated then c.not else c) := by
  obtain ⟨i, hi, hc⟩ := Condition.ofLookup_ok h
  have hname := Identifier.name_of_ofField hi
  obtain ⟨hcheck, htruth⟩ := Condition.truth?_ofOperand hdb hc hlookup hoperand
  refine ⟨⟨_, _, operand, negated⟩, by rw [ofKey, hcheck], hoperand.coerced _ _ _, ?_⟩
  intro row hrow
  rw [hname] at htruth
  have hrow := htruth row (hrow _)
  cases negated with
  | false => rw [if_neg Bool.false_ne_true, hrow, Bool.bne_false]
  | true => rw [if_pos rfl, Condition.truth?, hrow, Option.map_some, truth_not, Bool.bne_true]

/-! ### Calls -/

def Record.row {α : Type} [Record α] (record : α) (field : String) : Value :=
  (Record.field? record field).getD .null

/-- The fields of a row hold what its cells hold. -/
theorem ColumnType.holds_row {r : Row} (h : ∀ x ∈ r.cells, (columns x.1).Holds x.2)
    (field : String) : (columns field).Holds (Record.row r field) := by
  show (columns field).Holds ((r.cells.lookup field).getD .null)
  cases hcell : r.cells.lookup field with
  | none => exact .null _
  | some v =>
    obtain ⟨before, after, hcells, -⟩ := List.lookup_eq_some_iff.mp hcell
    exact h (field, v) (hcells ▸ List.mem_append_right before List.mem_cons_self)

inductive Restriction
  | filter (pairs : List (String × Value))
  | exclude (pairs : List (String × Value))

namespace Restriction

def pairs : Restriction → List (String × Value)
  | .filter pairs | .exclude pairs => pairs

def operation : Restriction → Operation
  | .filter pairs => .filter pairs
  | .exclude pairs => .exclude pairs

variable {α : Type}

def select (s : Selection α) : Restriction → Except Failure (Selection α)
  | .filter pairs => s.filter pairs
  | .exclude pairs => s.exclude pairs

def selectAll (s : Selection α) : List Restriction → Except Failure (Selection α)
  | [] => .ok s
  | call :: rest => (call.select s).bind fun next => selectAll next rest

/-- The same pairs become conditions and predicates that mirror each other. -/
theorem mirrored_of_pairs (hdb : db.IsStandard) {pairs : List (String × Value)}
    {cs : List Condition} (h : Condition.ofPairs pairs = .ok cs) (hfits : Fits columns pairs)
    (negated : Bool) :
    ∃ ps, (pairs.mapM fun (key, operand) => Predicate.ofKey negated key operand) = .ok ps ∧
      List.Forall₂ (Predicate.Mirrored db columns) ps
        (cs.map fun c => if negated then c.not else c) := by
  have hall := forall₂_of_mapM_ok h
  clear h
  induction hall with
  | nil => exact ⟨[], rfl, .nil⟩
  | @cons x c pairs cs hx _ ih =>
    obtain ⟨hlookup, hoperand⟩ := hfits x List.mem_cons_self
    obtain ⟨p, hp, hmirror⟩ := Predicate.ofKey_mirrored hdb hx hlookup hoperand negated
    obtain ⟨ps, hps, hmirrors⟩ := ih fun y hy => hfits y (List.mem_cons_of_mem _ hy)
    refine ⟨p :: ps, ?_, .cons hmirror hmirrors⟩
    simp only [List.mapM_cons, hp, hps]
    rfl

/-- One call: what the query refuses not, the selection refuses not either. -/
theorem select_of_run (hdb : db.IsStandard) (call : Restriction) {q q' : Query} {s : Selection α}
    (h : call.operation.run q = .ok q') (hfits : Fits columns call.pairs)
    (hmirror : List.Forall₂ (Predicate.Mirrored db columns) s.predicates q.clauses.conditions) :
    ∃ s', call.select s = .ok s' ∧ s'.items = s.items ∧ s'.registry = s.registry ∧
      List.Forall₂ (Predicate.Mirrored db columns) s'.predicates q'.clauses.conditions := by
  cases call with
  | filter pairs =>
    obtain ⟨cs, hcs, rfl⟩ := Except.map_eq_ok.mp h
    obtain ⟨ps, hps, hmirrors⟩ := mirrored_of_pairs hdb hcs hfits false
    have hsame : (cs.map fun c => if false = true then c.not else c) = cs := List.map_id cs
    rw [hsame] at hmirrors
    exact ⟨_, Except.map_eq_ok.mpr ⟨ps, hps, rfl⟩, rfl, rfl,
      List.rel_append hmirror hmirrors⟩
  | exclude pairs =>
    obtain ⟨cs, hcs, rfl⟩ := Except.map_eq_ok.mp h
    obtain ⟨ps, hps, hmirrors⟩ := mirrored_of_pairs hdb hcs hfits true
    exact ⟨_, Except.map_eq_ok.mpr ⟨ps, hps, rfl⟩, rfl, rfl,
      List.rel_append hmirror hmirrors⟩

theorem selectAll_of_chain (hdb : db.IsStandard) (calls : List Restriction) {q q' : Query}
    {s : Selection α} (h : q.chain (calls.map operation) = .ok q')
    (hfits : ∀ call ∈ calls, Fits columns call.pairs)
    (hmirror : List.Forall₂ (Predicate.Mirrored db columns) s.predicates q.clauses.conditions) :
    ∃ s', selectAll s calls = .ok s' ∧ s'.items = s.items ∧ s'.registry = s.registry ∧
      List.Forall₂ (Predicate.Mirrored db columns) s'.predicates q'.clauses.conditions := by
  induction calls generalizing q s with
  | nil =>
    obtain rfl := Except.ok.inj h
    exact ⟨s, rfl, rfl, rfl, hmirror⟩
  | cons call rest ih =>
    obtain ⟨next, hnext, h⟩ := Query.chain_cons_ok.mp h
    obtain ⟨t, ht, hitems, hregistry, hmirror⟩ :=
      call.select_of_run hdb hnext (hfits call List.mem_cons_self) hmirror
    obtain ⟨s', hs', hitems', hregistry', hend⟩ :=
      ih h (fun x hx => hfits x (List.mem_cons_of_mem _ hx)) hmirror
    exact ⟨s', Except.bind_eq_ok.mpr ⟨t, ht, hs'⟩, hitems'.trans hitems,
      hregistry'.trans hregistry, hend⟩

/-- The same calls on a query without conditions and on a selection without predicates and without
kinds of fields. On each record every condition of the query is for a database what the selection
makes of its predicate, unless null is compared, which has no truth, or a list has to be put in
order, which is the database's own affair. So the database keeps the records of which all this is
true; where no list is put in order, they are those that the selection keeps, but for the records
on which one of the conditions compares null. -/
theorem kept_eq [Record α] (hdb : db.IsStandard) (calls : List Restriction) {q q' : Query}
    {s : Selection α} (hq : q.clauses.conditions = []) (hs : s.predicates = [])
    (hregistry : s.registry = {})
    (hrecords : ∀ r ∈ s.items, ∀ field, (columns field).Holds (Record.row r field))
    (hcalls : ∀ call ∈ calls, Fits columns call.pairs)
    (h : q.chain (calls.map operation) = .ok q') :
    ∃ s', selectAll s calls = .ok s' ∧
      (∀ r ∈ s.items,
        (q'.clauses.writeConditions q.dialect).truths? db q.dialect.placeholder (Record.row r) =
          some (s'.predicates.map fun p => p.truth db (Record.row r p.field) (s'.satisfies r p))) ∧
      s.items.filter (fun r => Clauses.keeps db q.dialect (Record.row r) q'.clauses) =
        s.items.filter (fun r => s'.predicates.all fun p =>
          p.truth db (Record.row r p.field) (s'.satisfies r p) = .yes) ∧
      ((∀ p ∈ s'.predicates, p.lookup.listOrder? p.operand = none) →
        s.items.filter (fun r => Clauses.keeps db q.dialect (Record.row r) q'.clauses) =
          s'.hits.filter fun r => s'.predicates.all fun p =>
            !p.lookup.isUndecided (Record.row r p.field) p.operand) := by
  have hstart : List.Forall₂ (Predicate.Mirrored db columns) s.predicates
      q.clauses.conditions := by
    rw [hq, hs]
    exact .nil
  obtain ⟨s', hs', hitems, hkinds, hmirror⟩ := selectAll_of_chain hdb calls h hcalls hstart
  have htruths : ∀ r ∈ s.items,
      (q'.clauses.writeConditions q.dialect).truths? db q.dialect.placeholder (Record.row r) =
        some (s'.predicates.map fun p =>
          p.truth db (Record.row r p.field) (s'.satisfies r p)) := by
    intro r hr
    apply Clauses.truths?_writeConditions
    rw [List.forall₂_map_right_iff]
    refine hmirror.flip.imp ?_
    intro c p hp
    rw [hp.truth _ (hrecords r hr), Selection.satisfies, Selection.value, hkinds, hregistry,
      hp.operand, ← Record.row, (hrecords r hr p.field).coerce_eq]
  have hkept : ∀ r ∈ s.items, Clauses.keeps db q.dialect (Record.row r) q'.clauses =
      s'.predicates.all fun p =>
        p.truth db (Record.row r p.field) (s'.satisfies r p) = .yes := by
    intro r hr
    rw [Clauses.keeps, htruths r hr, Option.map_some, Bool.eq_iff_iff, decide_eq_true_iff,
      Option.some.injEq, Truth.all_eq_yes, List.forall_mem_map, List.all_eq_true]
    exact forall₂_congr fun p _ => decide_eq_true_iff.symm
  refine ⟨s', hs', htruths, List.filter_congr hkept, ?_⟩
  intro hnone
  rw [Selection.hits, hitems, List.filter_filter]
  apply List.filter_congr
  intro r hr
  rw [hkept r hr, Bool.eq_iff_iff, Bool.and_eq_true, List.all_eq_true, List.all_eq_true,
    List.all_eq_true, ← forall₂_and]
  refine forall₂_congr fun p hp => ?_
  rw [Predicate.truth, hnone p hp, decide_eq_true_iff]
  cases p.lookup.isUndecided (Record.row r p.field) p.operand <;> simp

/-- Null in a list, null among the values, a text as a bound, and a list as a bound. -/
theorem kept_eq_of_lists :
    ∃ (q' : Query) (s' : Selection Row),
      Database.sqlite.IsStandard ∧
      Query.chain ⟨.tsql, ⟨.ofText "SELECT * FROM t", [], none, [], {}⟩⟩
        ([filter [("a__in", .list [.null, .int 1])], exclude [("b__gt", .text "x")],
          filter [("b__gt", .list [.text "b"])]].map operation) = .ok q' ∧
      selectAll (α := Row)
        ⟨[⟨[("a", .int 1), ("b", .text "x")]⟩, ⟨[("a", .null)]⟩], {}, [], [], {}⟩
        [filter [("a__in", .list [.null, .int 1])], exclude [("b__gt", .text "x")],
          filter [("b__gt", .list [.text "b"])]] = .ok s' ∧
      s'.hits = [] ∧
      (s'.items.filter fun r => Clauses.keeps .sqlite .tsql (Record.row r) q'.clauses) =
        [⟨[("a", .int 1), ("b", .text "x")]⟩] := by
  let columns (field : String) : ColumnType := if field = "a" then .integer else .text
  let calls := [filter [("a__in", .list [.null, .int 1])], exclude [("b__gt", .text "x")],
    filter [("b__gt", .list [.text "b"])]]
  let q : Query := ⟨.tsql, ⟨.ofText "SELECT * FROM t", [], none, [], {}⟩⟩
  let s : Selection Row :=
    ⟨[⟨[("a", .int 1), ("b", .text "x")]⟩, ⟨[("a", .null)]⟩], {}, [], [], {}⟩
  have hrecords : ∀ r ∈ s.items, ∀ field, (columns field).Holds (Record.row r field) := by
    refine List.forall_mem_cons.mpr ⟨?_, List.forall_mem_singleton.mpr ?_⟩
    · apply ColumnType.holds_row
      exact List.forall_mem_cons.mpr ⟨.int 1, List.forall_mem_singleton.mpr (.text "x")⟩
    · apply ColumnType.holds_row
      exact List.forall_mem_singleton.mpr (.null _)
  have hcalls : ∀ call ∈ calls, Fits columns call.pairs := by
    refine List.forall_mem_cons.mpr ⟨?_, List.forall_mem_cons.mpr ⟨?_, ?_⟩⟩
    · refine List.forall_mem_singleton.mpr ⟨by rfl, .list ?_⟩
      exact List.forall_mem_cons.mpr ⟨.null _, List.forall_mem_singleton.mpr (.int 1)⟩
    · exact List.forall_mem_singleton.mpr ⟨by rfl, .value (.text "x")⟩
    · refine List.forall_mem_singleton.mpr (List.forall_mem_singleton.mpr ⟨by rfl, .list ?_⟩)
      exact List.forall_mem_singleton.mpr (.text "b")
  obtain ⟨s', hs', -, hkept, -⟩ := kept_eq (q := q) (s := s) Database.isStandard_sqlite calls
    rfl rfl rfl hrecords hcalls rfl
  obtain rfl := Except.ok.inj hs'
  exact ⟨_, _, Database.isStandard_sqlite, rfl, hs', rfl, hkept.trans rfl⟩

/-- A record with null is not among the excluded ones, but no database keeps it. -/
theorem exclude_keeps_null :
    ∃ (q q' : Query) (s' : Selection Row),
      Query.ofBase .sqlite "SELECT * FROM t" = .ok q ∧
      q.chain [operation (exclude [("a", .int 1)])] = .ok q' ∧
      selectAll (α := Row) ⟨[⟨[("a", .null)]⟩, ⟨[("a", .int 2)]⟩], {}, [], [], {}⟩
        [exclude [("a", .int 1)]] = .ok s' ∧
      (∀ r ∈ s'.items, ∀ field, ColumnType.integer.Holds (Record.row r field)) ∧
      s'.hits = [⟨[("a", .null)]⟩, ⟨[("a", .int 2)]⟩] ∧
      (s'.items.filter fun r => Clauses.keeps .sqlite .sqlite (Record.row r) q'.clauses) =
        [⟨[("a", .int 2)]⟩] := by
  refine ⟨⟨.sqlite, ⟨.ofText "SELECT * FROM t", [], none, [], {}⟩⟩, _, _, by rfl, by rfl, by rfl,
    ?_, by rfl, by rfl⟩
  let columns (_ : String) : ColumnType := .integer
  have hrow (r : Row) (h : ∀ x ∈ r.cells, (columns x.1).Holds x.2) :=
    ColumnType.holds_row h
  refine List.forall_mem_cons.mpr ⟨?_, List.forall_mem_singleton.mpr ?_⟩
  · exact hrow _ (List.forall_mem_singleton.mpr (.null _))
  · exact hrow _ (List.forall_mem_singleton.mpr (.int 2))

end Restriction

end QueryChain
