import QueryChain.Proofs.Comparison

/-!
Comparison and loose equality the other way round. Two values have opposite orders or mismatched
sorts, and they are loosely equal both ways or neither way, however deeply lists and JSON values
nest in them.
-/

namespace QueryChain

/-! ### JSON values -/

namespace Json

mutual

theorem same_comm : ∀ i j : Json, i.same j = j.same i
  | .null, j => by cases j <;> rfl
  | .bool a, j => by
    cases j with
    | bool b => exact Bool.beq_comm
    | null | whole _ | float _ | text _ | array _ | object _ => rfl
  | .whole a, j => by
    cases j with
    | whole b => exact Bool.beq_comm
    | null | bool _ | float _ | text _ | array _ | object _ => rfl
  | .float a, j => by
    cases j with
    | float b => exact Bool.beq_comm
    | null | bool _ | whole _ | text _ | array _ | object _ => rfl
  | .text a, j => by
    cases j with
    | text b => exact Bool.beq_comm
    | null | bool _ | whole _ | float _ | array _ | object _ => rfl
  | .array as, j => by
    cases j with
    | array bs => exact sameItems_comm as bs
    | null | bool _ | whole _ | float _ | text _ | object _ => rfl
  | .object as, j => by
    cases j with
    | object bs => exact sameMembers_comm as bs
    | null | bool _ | whole _ | float _ | text _ | array _ => rfl

theorem sameItems_comm : ∀ as bs : List Json, sameItems as bs = sameItems bs as
  | [], [] | [], _ :: _ | _ :: _, [] => rfl
  | a :: as, b :: bs => by rw [sameItems, sameItems, same_comm a b, sameItems_comm as bs]

theorem sameMembers_comm : ∀ as bs : List (String × Json), sameMembers as bs = sameMembers bs as
  | [], [] | [], _ :: _ | _ :: _, [] => rfl
  | (k, a) :: as, (l, b) :: bs => by
    rw [sameMembers, sameMembers, same_comm a b, sameMembers_comm as bs, Bool.beq_comm (a := k)]

end

end Json

/-! ### Values -/

namespace Value

theorem exists_json_of_kind {v : Value} (h : v.kind = .json) : ∃ j, v = .json j := by
  cases v with
  | json j => exact ⟨j, rfl⟩
  | null | bool _ | int _ | float _ | text _ | blob _ | timestamp _ | list _ => cases h

theorem isEqual_iff {a b : Value} : a.isEqual b = true ↔ a.order b = .ok .eq := by
  rw [isEqual]
  split <;> simp_all

theorem isEqual_comm (a b : Value) : a.isEqual b = b.isEqual a := by
  rw [Bool.eq_iff_iff, isEqual_iff, isEqual_iff]
  exact ⟨order_swap, order_swap⟩

/-- A null has no order. -/
theorem isEqual_of_isNull {a b : Value} (h : a.isNull = true ∨ b.isNull = true) :
    a.isEqual b = false := by
  rw [Bool.eq_false_iff, ne_eq, isEqual_iff]
  intro heq
  rcases h with ha | hb
  · rw [isNull_left_of_order heq] at ha
    cases ha
  · rw [isNull_left_of_order (order_swap heq)] at hb
    cases hb

theorem looselyEquals_json (i j : Json) : (json i).looselyEquals (json j) = i.same j := by
  cases i <;> cases j <;> rfl

theorem looselyEquals_list (as bs : List Value) :
    (list as).looselyEquals (list bs) = looselyEqualItems as bs := by
  rw [looselyEquals]
  rfl

/-- Nulls apart, values that are neither both JSON nor both lists are compared by their order. -/
theorem looselyEquals_of_kind {a b : Value} (hjson : a.kind ≠ .json ∨ b.kind ≠ .json)
    (hlist : a.kind ≠ .list ∨ b.kind ≠ .list) :
    a.looselyEquals b = (a.isNull && b.isNull || a.isEqual b) := by
  rw [looselyEquals]
  · split
    · rename_i hnull
      rw [isEqual_of_isNull ((Bool.or_eq_true _ _).mp hnull), Bool.or_false]
    · rename_i hnull
      rw [Bool.not_eq_true, Bool.or_eq_false_iff] at hnull
      rw [hnull.1, Bool.false_and, Bool.false_or]
  · rintro i j rfl rfl
    rcases hjson with h | h <;> exact h rfl
  · rintro as bs rfl rfl
    rcases hlist with h | h <;> exact h rfl

theorem looselyEquals_comm_of_kind {a b : Value} (hlist : a.kind ≠ .list ∨ b.kind ≠ .list) :
    a.looselyEquals b = b.looselyEquals a := by
  by_cases hjson : a.kind = .json ∧ b.kind = .json
  · obtain ⟨i, rfl⟩ := exists_json_of_kind hjson.1
    obtain ⟨j, rfl⟩ := exists_json_of_kind hjson.2
    rw [looselyEquals_json, looselyEquals_json, Json.same_comm]
  · have hjson := Decidable.not_and_iff_or_not.mp hjson
    rw [looselyEquals_of_kind hjson hlist, looselyEquals_of_kind hjson.symm hlist.symm,
      Bool.and_comm, isEqual_comm]

mutual

theorem looselyEquals_comm : ∀ a b : Value, a.looselyEquals b = b.looselyEquals a
  | .list as, b => by
    cases b with
    | list bs => rw [looselyEquals_list, looselyEquals_list, looselyEqualItems_comm as bs]
    | null | bool _ | int _ | float _ | text _ | blob _ | timestamp _ | json _ =>
      exact looselyEquals_comm_of_kind (.inr nofun)
  | .null, _ | .bool _, _ | .int _, _ | .float _, _ | .text _, _ | .blob _, _ | .timestamp _, _
  | .json _, _ => looselyEquals_comm_of_kind (.inl nofun)

theorem looselyEqualItems_comm : ∀ as bs : List Value,
    looselyEqualItems as bs = looselyEqualItems bs as
  | [], [] | [], _ :: _ | _ :: _, [] => rfl
  | a :: as, b :: bs => by
    rw [looselyEqualItems, looselyEqualItems, looselyEquals_comm a b, looselyEqualItems_comm as bs]

end

/-! ### Mismatches -/

theorem compareNative_mismatch {a b : Value} {k l : ValueKind} :
    compareNative a b = .error (.typeMismatch k l) ↔
      compareNative? a b = none ∧ k = a.kind ∧ l = b.kind := by
  rw [compareNative]
  cases compareNative? a b <;> simp [eq_comm]

theorem mismatch_swap {a b : Value} {k l : ValueKind} (h : a.order b = .error (.typeMismatch k l)) :
    b.order a = .error (.typeMismatch l k) := by
  rw [order_eq] at h ⊢
  split at h
  · rename_i hjson
    cases h
    rw [if_pos hjson.symm]
  · rename_i hjson
    obtain ⟨hnone, rfl, rfl⟩ := compareNative_mismatch.mp h
    rw [if_neg fun hback => hjson hback.symm]
    exact compareNative_mismatch.mpr ⟨by rw [compareNative?_swap, hnone]; rfl, rfl, rfl⟩

/-- Of two values with an order each has the opposite one to the other, of two others both are
refused with their sorts exchanged, and loose equality does not see which one comes first. -/
theorem compared_both_ways (a b : Value) :
    (∀ o, a.order b = .ok o ↔ b.order a = .ok o.swap) ∧
      (∀ k l, a.order b = .error (.typeMismatch k l) ↔ b.order a = .error (.typeMismatch l k)) ∧
      a.looselyEquals b = b.looselyEquals a := by
  refine ⟨fun o => ⟨order_swap, fun h => ?_⟩, fun k l => ⟨mismatch_swap, mismatch_swap⟩,
    looselyEquals_comm a b⟩
  rw [order_swap h, Ordering.swap_swap]

end Value

end QueryChain
