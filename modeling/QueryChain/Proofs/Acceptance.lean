import QueryChain.Proofs.Agreement

/-!
Predicates that are refused. A query and a selection read the operands of their predicates each in
its own way; what they refuse, and the failure that they answer, is the same.
-/

namespace QueryChain

/-! ### Operands -/

/-- Why a lookup refuses an operand, if it does: it is no list where one is asked for, or it is one
where a value is compared for equality. -/
def Lookup.fault? (lookup : Lookup) (operand : Value) : Option OperandFault :=
  match lookup, operand.asList? with
  | .oneOf, none => some (.notList operand.kind)
  | .exact, some _ => some .listForExact
  | _, _ => none

theorem Value.asList?_of_isNull {v : Value} (h : v.isNull = true) : v.asList? = none := by
  cases v with
  | null => rfl
  | json j =>
    cases j with
    | null => rfl
    | bool _ | whole _ | float _ | text _ | array _ | object _ => cases h
  | bool _ | int _ | float _ | text _ | blob _ | timestamp _ | list _ => cases h

theorem Condition.failure?_ofOperand (i : Identifier) (lookup : Lookup) (operand : Value) :
    failure? (ofOperand i lookup operand) = lookup.fault? operand := by
  cases lookup with
  | exact =>
    simp only [ofOperand, Lookup.fault?]
    cases hnull : operand.isNull with
    | true => rw [operand.asList?_of_isNull hnull, if_pos rfl, failure?]
    | false => cases operand.asList? <;> rfl
  | oneOf =>
    simp only [ofOperand, Lookup.fault?]
    rcases operand.asList? with _ | _ | _ <;> rfl
  | isNull | startsWith | endsWith | contains | iContains | iStartsWith | iEndsWith | gt | gte | lt
  | lte => rfl

theorem Predicate.failure?_checkOperand (lookup : Lookup) (operand : Value) :
    failure? (checkOperand lookup operand) = lookup.fault? operand := by
  simp only [checkOperand, Lookup.fault?]
  cases lookup <;> cases operand.asList? <;> rfl

/-! ### Pairs -/

def refusal? (pair : String × Value) : Option Failure :=
  let k := Key.parse pair.1
  (k.lookup.fault? pair.2).map (.invalidLookup k.field k.lookup)

def Key.IsNamed (k : Key) : Prop :=
  ∃ i, Identifier.ofField k.field = .ok i

theorem Condition.failure?_ofKey {pair : String × Value} (h : (Key.parse pair.1).IsNamed) :
    failure? (ofKey pair.1 pair.2) = refusal? pair := by
  obtain ⟨i, hi⟩ := h
  rw [ofKey, ofLookup, hi, failure?_mapError, failure?_ofOperand, refusal?]

theorem Predicate.failure?_ofKey (negated : Bool) (pair : String × Value) :
    failure? (ofKey negated pair.1 pair.2) = refusal? pair := by
  rw [refusal?, ← failure?_checkOperand, ofKey]
  cases checkOperand (Key.parse pair.1).lookup pair.2 <;> rfl

theorem Condition.failure?_ofPairs {pairs : List (String × Value)}
    (h : ∀ x ∈ pairs, (Key.parse x.1).IsNamed) :
    failure? (ofPairs pairs) = pairs.findSome? refusal? := by
  exact failure?_mapM fun x hx => failure?_ofKey (h x hx)

theorem Selection.failure?_addPredicates {α : Type} (negated : Bool)
    (pairs : List (String × Value)) (s : Selection α) :
    failure? (s.addPredicates negated pairs) = pairs.findSome? refusal? := by
  rw [addPredicates, failure?_map]
  exact failure?_mapM fun x _ => Predicate.failure?_ofKey negated x

/-! ### Calls -/

namespace Restriction

variable {α : Type}

theorem failure?_run {call : Restriction} (h : ∀ x ∈ call.pairs, (Key.parse x.1).IsNamed)
    (q : Query) : failure? (call.operation.run q) = call.pairs.findSome? refusal? := by
  cases call with
  | filter pairs | exclude pairs => exact (failure?_map _ _).trans (Condition.failure?_ofPairs h)

theorem failure?_select (call : Restriction) (s : Selection α) :
    failure? (call.select s) = call.pairs.findSome? refusal? := by
  cases call with
  | filter pairs => exact s.failure?_addPredicates false pairs
  | exclude pairs => exact s.failure?_addPredicates true pairs

/-- The pairs of a call whose fields are names are accepted by a selection if and only if they are
accepted by a query. Where they are refused the failure is the same, and tells what is wrong with
the first pair that is not as its lookup wants it. -/
theorem refused_alike (call : Restriction)
    (h : ∀ x ∈ call.pairs, (Key.parse x.1).IsNamed) (q : Query) (s : Selection α) :
    ((∃ s', call.select s = .ok s') ↔ ∃ q', call.operation.run q = .ok q') ∧
      ∀ e, (call.select s = .error e ↔ call.operation.run q = .error e) ∧
        (call.select s = .error e ↔ ∃ before x after fault,
          call.pairs = before ++ x :: after ∧
          (∀ y ∈ before, (Key.parse y.1).lookup.fault? y.2 = none) ∧
          (Key.parse x.1).lookup.fault? x.2 = some fault ∧
          e = .invalidLookup (Key.parse x.1).field (Key.parse x.1).lookup fault) := by
  have hselect := call.failure?_select s
  have hrun := failure?_run h q
  refine ⟨?_, fun e => ⟨?_, ?_⟩⟩
  · rw [← failure?_eq_none, ← failure?_eq_none, hselect, hrun]
  · rw [← failure?_eq_some, ← failure?_eq_some, hselect, hrun]
  · rw [← failure?_eq_some, hselect, List.findSome?_eq_some_iff]
    simp only [refusal?, Option.map_eq_some_iff, Option.map_eq_none_iff]
    constructor
    · rintro ⟨before, x, after, hpairs, ⟨fault, hfault, rfl⟩, hbefore⟩
      exact ⟨before, x, after, fault, hpairs, hbefore, hfault, rfl⟩
    · rintro ⟨before, x, after, fault, hpairs, hbefore, hfault, rfl⟩
      exact ⟨before, x, after, hpairs, ⟨fault, hfault, rfl⟩, hbefore⟩

/-- A JSON array behind a suffix that names no lookup, and after it no list where one is asked
for. -/
theorem refused_alike_of_array :
    let call := exclude [("a__in", .json (.array [.null])), ("b__gt__in", .list [.int 1]),
      ("c__was", .json (.array [])), ("d__in", .null)]
    let e := Failure.invalidLookup "c" .exact .listForExact
    ∃ q, Query.ofTable .tsql "s.t" = .ok q ∧ (∀ x ∈ call.pairs, (Key.parse x.1).IsNamed) ∧
      call.select (⟨[], {}, [], [], {}⟩ : Selection Row) = .error e ∧
      call.operation.run q = .error e := by
  intro call e
  have hnamed : ∀ x ∈ call.pairs, (Key.parse x.1).IsNamed :=
    List.forall_mem_cons.mpr ⟨⟨_, rfl⟩, List.forall_mem_cons.mpr ⟨⟨_, rfl⟩,
      List.forall_mem_cons.mpr ⟨⟨_, rfl⟩, List.forall_mem_singleton.mpr ⟨_, rfl⟩⟩⟩⟩
  have hbefore : ∀ y ∈ call.pairs.take 2, (Key.parse y.1).lookup.fault? y.2 = none :=
    List.forall_mem_cons.mpr ⟨rfl, List.forall_mem_singleton.mpr rfl⟩
  let q : Query := ⟨.tsql, ⟨.ofText "SELECT * FROM \"s\".\"t\"", [], none, [], {}⟩⟩
  obtain ⟨-, hrefused⟩ := call.refused_alike hnamed q (⟨[], {}, [], [], {}⟩ : Selection Row)
  have hselect := (hrefused e).2.mpr ⟨call.pairs.take 2, ("c__was", .json (.array [])),
    call.pairs.drop 3, .listForExact, rfl, hbefore, rfl, rfl⟩
  exact ⟨q, rfl, hnamed, hselect, (hrefused e).1.mp hselect⟩

end Restriction

end QueryChain
