import QueryChain.Value.Order

/-!
Comparison of values the other way round. Two values have an order one way if and only if they
have one the other way, and it is the opposite one.
-/

namespace QueryChain

open Number Time

/-! ### Parts of values -/

theorem compareOfLessAndEq_text_swap (a b : String) :
    compareOfLessAndEq b a = (compareOfLessAndEq a b).swap :=
  compareOfLessAndEq_eq_swap String.le_antisymm String.le_total String.not_le

theorem compareOfLessAndEq_bytes_swap (a b : List UInt8) :
    compareOfLessAndEq b a = (compareOfLessAndEq a b).swap :=
  compareOfLessAndEq_eq_swap List.le_antisymm List.le_total List.not_le

theorem Number.Binary64.compare?_swap (x y : Binary64) :
    y.compare? x = (x.compare? y).map Ordering.swap := by
  rw [compare?, compare?, Bool.or_comm]
  split
  · rfl
  · exact congrArg some (Int.compare_swap x.key y.key).symm

theorem Time.Moment.order_swap (a b : Moment) : b.order a = (a.order b).swap := by
  simp only [order, Ordering.swap_then, Nat.compare_swap, Int.compare_swap]

/-! ### Values -/

namespace Value

theorem compareNative?_swap (a b : Value) :
    compareNative? b a = (compareNative? a b).map Ordering.swap := by
  cases a with
  | int m =>
    cases b with
    | int n => exact congrArg some (Int.compare_swap m.toInt n.toInt).symm
    | float y => exact Binary64.compare?_swap (.ofInt m.toInt) y
    | null | bool _ | text _ | blob _ | timestamp _ | json _ | list _ => rfl
  | float x =>
    cases b with
    | int n => exact Binary64.compare?_swap x (.ofInt n.toInt)
    | float y => exact Binary64.compare?_swap x y
    | null | bool _ | text _ | blob _ | timestamp _ | json _ | list _ => rfl
  | bool m =>
    cases b with
    | bool n => exact congrArg some (Nat.compare_swap m.toNat n.toNat).symm
    | null | int _ | float _ | text _ | blob _ | timestamp _ | json _ | list _ => rfl
  | text s =>
    cases b with
    | text t => exact congrArg some (compareOfLessAndEq_text_swap s t)
    | null | bool _ | int _ | float _ | blob _ | timestamp _ | json _ | list _ => rfl
  | blob m =>
    cases b with
    | blob n => exact congrArg some (compareOfLessAndEq_bytes_swap m n)
    | null | bool _ | int _ | float _ | text _ | timestamp _ | json _ | list _ => rfl
  | timestamp t =>
    cases b with
    | timestamp u => exact congrArg some (t.order_swap u)
    | null | bool _ | int _ | float _ | text _ | blob _ | json _ | list _ => rfl
  | null | json _ | list _ => cases b <;> rfl

theorem compareNative_ok {a b : Value} {o : Ordering} :
    compareNative a b = .ok o ↔ compareNative? a b = some o := by
  rw [compareNative]
  cases compareNative? a b <;> simp

theorem compareNative_swap {a b : Value} {o : Ordering} (h : compareNative a b = .ok o) :
    compareNative b a = .ok o.swap := by
  rw [compareNative_ok] at h ⊢
  rw [compareNative?_swap, h, Option.map_some]

def native : Value → Value
  | .json j => .ofJson j
  | v => v

/-- Two JSON values have no order; any other two are compared as native values. -/
theorem order_eq (a b : Value) :
    a.order b = if a.kind = .json ∧ b.kind = .json then .error (.typeMismatch .json .json)
      else compareNative a.native b.native := by
  cases a with
  | json i =>
    cases b with
    | json j => rfl
    | null | bool _ | int _ | float _ | text _ | blob _ | timestamp _ | list _ =>
      simp only [order, native]
      cases ofJson i <;> rfl
  | null | bool _ | int _ | float _ | text _ | blob _ | timestamp _ | list _ =>
    cases b with
    | json j =>
      simp only [order, native]
      cases ofJson j <;> rfl
    | null | bool _ | int _ | float _ | text _ | blob _ | timestamp _ | list _ => rfl

theorem order_swap {a b : Value} {o : Ordering} (h : a.order b = .ok o) :
    b.order a = .ok o.swap := by
  rw [order_eq] at h ⊢
  split at h
  · cases h
  · rename_i hnative
    rw [if_neg fun hjson => hnative hjson.symm]
    exact compareNative_swap h

theorem isNull_left_of_order {a b : Value} {o : Ordering} (h : a.order b = .ok o) :
    a.isNull = false := by
  rw [order_eq] at h
  split at h
  · cases h
  · cases a with
    | null => cases h
    | json j =>
      cases j with
      | null => cases h
      | bool _ | whole _ | float _ | text _ | array _ | object _ => rfl
    | bool _ | int _ | float _ | text _ | blob _ | timestamp _ | list _ => rfl

end Value

end QueryChain
