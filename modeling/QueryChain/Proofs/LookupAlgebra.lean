import QueryChain.Proofs.Agreement
import QueryChain.Proofs.LooseEquality
import QueryChain.Proofs.Searching

/-!
Lookups in memory in terms of each other. A list is met where equality with one of its items is,
and a lookup that admits equality is met where the strict one or equality is. A value that has an
order to the operand meets exactly one of equality and the strict lookups, any other value none of
them. A list as the operand is refused by equality alone, also where a field turns it into a text,
so the laws that need equality leave it aside.
-/

namespace QueryChain

def Comparison.lookup : Comparison → Lookup
  | .eq => .exact
  | .gt => .gt
  | .gte => .gte
  | .lt => .lt
  | .lte => .lte

/-! ### Values -/

namespace Value

/-- Whether a value is neither null nor JSON nor a list. -/
structure Ordinary (v : Value) : Prop where
  notNull : v.isNull = false
  notJson : v.kind ≠ .json
  notList : v.kind ≠ .list

variable {a b : Value}

/-- Null is equal to null alone. -/
theorem looselyEquals_of_isNull (h : b.isNull = true) : a.looselyEquals b = a.isNull := by
  unfold looselyEquals
  rw [h, Bool.or_true, if_pos rfl, Bool.and_true]

theorem Ordinary.looselyEquals_eq (ha : a.Ordinary) (hb : b.Ordinary) :
    a.looselyEquals b = Predicate.orderMatches a b Comparison.eq.accepts := by
  rw [looselyEquals_of_kind (.inl ha.notJson) (.inl ha.notList), ha.notNull, Bool.false_and,
    Bool.false_or, isEqual_eq ha.notNull hb.notNull]

end Value

/-! ### Comparisons -/

namespace Predicate

theorem evaluate_exact (item operand given : Value) :
    evaluate .exact item operand given = item.looselyEquals operand := by
  rw [evaluate]
  split
  · rename_i hnull
    rw [Value.looselyEquals_of_isNull hnull]
  · rfl

theorem orderMatches_eq {a b : Value} (ha : a.isNull = false) (hb : b.isNull = false)
    (accept : Ordering → Bool) :
    orderMatches a b accept = (a.order b).toOption.any accept := by
  rw [orderMatches, ha, hb]
  cases a.order b <;> rfl

/-- A comparison that admits equality is the strict one or equality. -/
theorem orderMatches_or_eq {a b : Value} (ha : a.isNull = false) (hb : b.isNull = false) :
    orderMatches a b Comparison.gte.accepts =
        (orderMatches a b Comparison.gt.accepts || orderMatches a b Comparison.eq.accepts) ∧
      orderMatches a b Comparison.lte.accepts =
        (orderMatches a b Comparison.lt.accepts || orderMatches a b Comparison.eq.accepts) := by
  simp only [orderMatches_eq ha hb]
  cases a.order b with
  | error e => exact ⟨rfl, rfl⟩
  | ok o => cases o <;> exact ⟨rfl, rfl⟩

/-- One of equality and the strict comparisons admits an order, and none admits its absence. -/
theorem count_orderMatches {a b : Value} (ha : a.isNull = false) (hb : b.isNull = false) :
    [Comparison.lt, .eq, .gt].countP (fun c => orderMatches a b c.accepts) =
      if (a.order b).isOk then 1 else 0 := by
  simp only [orderMatches_eq ha hb]
  cases a.order b with
  | error e => rfl
  | ok o => cases o <;> rfl

end Predicate

/-! ### Lookups -/

namespace Selection

variable {α : Type} [Record α]

/-- Whether a record meets a lookup on a field with an operand. An operand that the lookup refuses
is met by no record. -/
def meets (s : Selection α) (field : String) (lookup : Lookup) (operand : Value) (record : α) :
    Bool :=
  match Predicate.checkOperand lookup operand with
  | .ok operand => s.satisfies record ⟨field, lookup, operand, false⟩
  | .error _ => false

/-- A filter by one key keeps the records that meet its lookup; a filter that is refused keeps
none. -/
theorem hits_filter (s : Selection α) (key : String) (operand : Value) :
    ((s.filter [(key, operand)]).map hits).toOption.getD [] =
      s.hits.filter (s.meets (Key.parse key).field (Key.parse key).lookup operand) := by
  rw [filter_singleton, Predicate.ofKey]
  unfold meets
  cases Predicate.checkOperand (Key.parse key).lookup operand with
  | error fault => simp [Except.map, Except.toOption]
  | ok operand => exact hits_adding s _

variable {s : Selection α} {record : α} {field : String} {v : Value}

theorem meets_exact (h : v.asList? = none) :
    s.meets field .exact v record =
      (s.value record field).looselyEquals (s.registry.coerce field v) := by
  simp only [meets, Predicate.checkOperand, h, satisfies, Predicate.evaluate_exact,
    Predicate.coercedOperand, Bool.bne_false]

theorem meets_oneOf {operand : Value} {items : List Value} (h : operand.asList? = some items) :
    s.meets field .oneOf operand record =
      items.any fun v => (s.value record field).looselyEquals (s.registry.coerce field v) := by
  simp only [meets, Predicate.checkOperand, h, satisfies, Predicate.evaluate,
    Predicate.coercedOperand, Bool.bne_false, List.any_map]
  rfl

theorem meets_exact_of_list {items : List Value} (h : v.asList? = some items) :
    s.meets field .exact v record = false := by
  simp only [meets, Predicate.checkOperand, h]

theorem meets_ordering {c : Comparison} (hc : c ≠ .eq) :
    s.meets field c.lookup v record =
      Predicate.orderMatches (s.value record field) (s.registry.coerce field v) c.accepts := by
  cases c with
  | eq => exact absurd rfl hc
  | gt | gte | lt | lte =>
    simp only [Comparison.lookup, meets, Predicate.checkOperand, satisfies, Predicate.evaluate,
      Predicate.coercedOperand, Bool.bne_false]
    rfl

/-- Equality and the ordering lookups look at the order of the coerced values alone. -/
theorem meets_comparison (h : v.asList? = none) (hvalue : (s.value record field).Ordinary)
    (hoperand : (s.registry.coerce field v).Ordinary) (c : Comparison) :
    s.meets field c.lookup v record =
      Predicate.orderMatches (s.value record field) (s.registry.coerce field v) c.accepts := by
  by_cases hc : c = .eq
  · subst hc
    exact (meets_exact h).trans (hvalue.looselyEquals_eq hoperand)
  · exact meets_ordering hc

/-- A comparison that is met is admitted by the order of the coerced values, also with a list as
the operand. -/
theorem orderMatches_of_meets (hvalue : (s.value record field).Ordinary)
    (hoperand : (s.registry.coerce field v).Ordinary) {c : Comparison}
    (h : s.meets field c.lookup v record = true) :
    Predicate.orderMatches (s.value record field) (s.registry.coerce field v) c.accepts = true := by
  by_cases hc : c = .eq
  · subst hc
    cases hlist : v.asList? with
    | none => exact (meets_comparison hlist hvalue hoperand .eq).symm.trans h
    | some items => exact absurd h (by rw [Comparison.lookup, meets_exact_of_list hlist]; nofun)
  · exact (meets_ordering hc).symm.trans h

/-- A filter by a key keeps the records that meet its lookup. A record meets a list of operands,
none of them a list, if and only if it meets equality with one of them. Where neither the coerced
value nor the coerced operand is null, JSON or a list, at most one of equality and the strict
lookups is met; if the operand was no list before, exactly one is if the two values have an order,
and a lookup that admits equality is met if and only if the strict one or equality is. -/
theorem lookups_composed (s : Selection α) :
    (∀ key operand, ((s.filter [(key, operand)]).map hits).toOption.getD [] =
      s.hits.filter (s.meets (Key.parse key).field (Key.parse key).lookup operand)) ∧
    ∀ (field : String) (record : α),
      (∀ operand items, operand.asList? = some items → (∀ v ∈ items, v.asList? = none) →
        (s.meets field .oneOf operand record = true ↔
          ∃ v ∈ items, s.meets field .exact v record = true)) ∧
      (∀ operand, operand.asList? = some [] → s.meets field .oneOf operand record = false) ∧
      ∀ v, (s.value record field).Ordinary → (s.registry.coerce field v).Ordinary →
        [Lookup.lt, .exact, .gt].countP (s.meets field · v record) ≤ 1 ∧
        (v.asList? = none →
          ([Lookup.lt, .exact, .gt].countP (s.meets field · v record) = 1 ↔
            ∃ o, (s.value record field).order (s.registry.coerce field v) = .ok o) ∧
          (s.meets field .gte v record = true ↔
            s.meets field .gt v record = true ∨ s.meets field .exact v record = true) ∧
          (s.meets field .lte v record = true ↔
            s.meets field .lt v record = true ∨ s.meets field .exact v record = true)) := by
  refine ⟨s.hits_filter, fun field record => ⟨fun operand items hitems hsingle => ?_,
    fun operand hempty => ?_, fun v hvalue hoperand => ⟨?_, fun hv => ?_⟩⟩⟩
  · rw [meets_oneOf hitems, List.any_eq_true]
    refine exists_congr fun v => and_congr_right fun hmem => ?_
    rw [meets_exact (hsingle v hmem)]
  · rw [meets_oneOf hempty]
    rfl
  · have hcount := Predicate.count_orderMatches hvalue.notNull hoperand.notNull
    calc [Lookup.lt, .exact, .gt].countP (s.meets field · v record)
      _ = [Comparison.lt, .eq, .gt].countP fun c => s.meets field c.lookup v record := rfl
      _ ≤ _ := List.countP_mono_left fun c _ => orderMatches_of_meets hvalue hoperand
      _ ≤ 1 := by rw [hcount]; split <;> decide
  · have hmeets := meets_comparison hv hvalue hoperand
    have hcount : [Lookup.lt, .exact, .gt].countP (s.meets field · v record) =
        if ((s.value record field).order (s.registry.coerce field v)).isOk then 1 else 0 := by
      rw [← Predicate.count_orderMatches hvalue.notNull hoperand.notNull]
      simp only [← hmeets]
      rfl
    obtain ⟨hgte, hlte⟩ := Predicate.orderMatches_or_eq hvalue.notNull hoperand.notNull
    rw [← hmeets, ← hmeets, ← hmeets, Bool.eq_iff_iff, Bool.or_eq_true] at hgte hlte
    refine ⟨?_, hgte, hlte⟩
    rw [hcount]
    cases (s.value record field).order (s.registry.coerce field v) <;>
      simp [Except.isOk, Except.toBool]

/-- Numerals in a field of integers, and a null among the items. -/
theorem lookups_composed_of_numerals :
    ∃ (s : Selection Row) (record : Row),
      s = { items := [record], registry := .ofList [("a", .integer)] } ∧
      record = ⟨[("a", .text "7")]⟩ ∧
      (s.value record "a").Ordinary ∧ (s.registry.coerce "a" (.text " 07 ")).Ordinary ∧
      (s.meets "a" .oneOf (.list [.null, .text " 07 "]) record = true ↔
        ∃ v ∈ [Value.null, .text " 07 "], s.meets "a" .exact v record = true) ∧
      (s.meets "a" .gte (.text " 07 ") record = true ↔
        s.meets "a" .gt (.text " 07 ") record = true ∨
          s.meets "a" .exact (.text " 07 ") record = true) := by
  refine ⟨{ items := [⟨[("a", .text "7")]⟩], registry := .ofList [("a", .integer)] },
    ⟨[("a", .text "7")]⟩, rfl, rfl, ?_⟩
  have hvalue : (Value.int 7).Ordinary := ⟨rfl, nofun, nofun⟩
  obtain ⟨hlist, -, horder⟩ := (lookups_composed
    { items := [⟨[("a", .text "7")]⟩], registry := .ofList [("a", .integer)] }).2 "a"
    (⟨[("a", .text "7")]⟩ : Row)
  exact ⟨hvalue, hvalue, hlist _ _ rfl (List.forall_mem_cons.mpr ⟨rfl,
    List.forall_mem_singleton.mpr rfl⟩), ((horder (.text " 07 ") hvalue hvalue).2 rfl).2.1⟩

/-- A field of texts turns a list into the text that the record has there. The record is at least
that text and not above it, but equality with the list is refused. -/
theorem list_is_never_equal :
    let s : Selection Row :=
      { items := [⟨[("a", .text "[1,2]")]⟩], registry := .ofList [("a", .text)] }
    let v : Value := .list [.int 1, .int 2]
    (∀ record ∈ s.items, s.value record "a" = .text "[1,2]") ∧
      s.registry.coerce "a" v = .text "[1,2]" ∧
      (s.filter [("a__gte", v)]).toOption.map (·.hits.length) = some 1 ∧
      (s.filter [("a__gt", v)]).toOption.map (·.hits.length) = some 0 ∧
      s.filter [("a", v)] = .error (.invalidLookup "a" .exact .listForExact) := by
  refine ⟨List.forall_mem_singleton.mpr rfl, rfl, ?_, ?_, rfl⟩
  · decide +kernel
  · decide +kernel

end Selection

end QueryChain
