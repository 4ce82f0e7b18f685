import QueryChain.Proofs.Conversion
import QueryChain.Proofs.LooseEquality
import QueryChain.Proofs.NumericOrder

/-!
JSON scalars in comparisons. Beside a value that is not JSON a scalar counts as the native value it
is. Two scalars are compared as JSON instead: they have no order, and different numbers are not
equal although the floats they are rounded to are.
-/

namespace QueryChain

open Number

namespace Json

inductive SameSort : Json → Json → Prop
  | bool (a b : Bool) : SameSort (.bool a) (.bool b)
  | text (s t : String) : SameSort (.text s) (.text t)
  | number {i j : Json} {x y : Binary64} (hi : (Value.json i).asFloat? = some x)
      (hj : (Value.json j).asFloat? = some y) : SameSort i j

theorem SameSort.symm {i j : Json} (h : SameSort i j) : SameSort j i := by
  cases h with
  | bool a b => exact .bool b a
  | text s t => exact .text t s
  | number hi hj => exact .number hj hi

/-- Whether two different JSON numbers, not both integers of the signed range, are rounded to equal
floats. -/
structure RoundedTogether (i j : Json) : Prop where
  differ : i.same j = false
  beyond : (Value.json i).asInt? = none ∨ (Value.json j).asInt? = none
  together : ∃ x y, (Value.json i).asFloat? = some x ∧ (Value.json j).asFloat? = some y ∧
    x.key = y.key

theorem RoundedTogether.sameSort {i j : Json} (h : i.RoundedTogether j) : i.SameSort j := by
  obtain ⟨x, y, hx, hy, -⟩ := h.together
  exact .number hx hy

end Json

namespace Value

/-! ### Scalars as native values -/

theorem isNull_ofJson (i : Json) : (ofJson i).isNull = (json i).isNull := by
  cases i with
  | whole n =>
    rw [ofJson]
    split <;> rfl
  | null | bool _ | float _ | text _ | array _ | object _ => rfl

theorem eq_null_of_isNull {i : Json} (h : (json i).isNull = true) : i = .null := by
  cases i with
  | null => rfl
  | bool _ | whole _ | float _ | text _ | array _ | object _ => cases h

theorem kind_ofJson {i : Json} (hi : i.isContainer = false) :
    (ofJson i).kind ≠ .json ∧ (ofJson i).kind ≠ .list := by
  cases i with
  | whole n =>
    rw [ofJson]
    split <;> constructor <;> rintro ⟨⟩
  | null | bool _ | float _ | text _ => constructor <;> rintro ⟨⟩
  | array _ | object _ => cases hi

theorem native_of_kind {v : Value} (h : v.kind ≠ .json) : v.native = v := by
  cases v with
  | json j => exact absurd rfl h
  | null | bool _ | int _ | float _ | text _ | blob _ | timestamp _ | list _ => rfl

theorem order_native {a b : Value} (h : a.kind ≠ .json ∨ b.kind ≠ .json) :
    a.order b = compareNative a.native b.native := by
  rw [order_eq, if_neg]
  rintro ⟨ha, hb⟩
  exact h.elim (· ha) (· hb)

theorem order_ofJson_left {i : Json} {v : Value} (hi : i.isContainer = false)
    (hv : v.kind ≠ .json) : (json i).order v = (ofJson i).order v := by
  rw [order_native (.inr hv), order_native (.inr hv), native_of_kind (kind_ofJson hi).1, native]

theorem order_ofJson_right {i : Json} {v : Value} (hi : i.isContainer = false)
    (hv : v.kind ≠ .json) : v.order (json i) = v.order (ofJson i) := by
  rw [order_native (.inl hv), order_native (.inl hv), native_of_kind (kind_ofJson hi).1, native]

theorem looselyEquals_ofJson_left {i : Json} {v : Value} (hi : i.isContainer = false)
    (hv : v.kind ≠ .json) : (json i).looselyEquals v = (ofJson i).looselyEquals v := by
  have hlist : (json i).kind ≠ .list := by rintro ⟨⟩
  rw [looselyEquals_of_kind (.inr hv) (.inl hlist),
    looselyEquals_of_kind (.inr hv) (.inl (kind_ofJson hi).2), isNull_ofJson, isEqual, isEqual,
    order_ofJson_left hi hv]

/-! ### Numbers -/

/-- A JSON number is an integer or a float as a native value. -/
theorem ofJson_number {i : Json} {x : Binary64} (h : (json i).asFloat? = some x) :
    (∃ n, (json i).asInt? = some n ∧ ofJson i = .int n ∧ x = .ofInt n.toInt) ∨
      (json i).asInt? = none ∧ ofJson i = .float x ∧ x.isFinite = true := by
  cases i with
  | whole n =>
    obtain ⟨val, low, high⟩ := n
    obtain rfl := Option.some.inj h
    simp only [asInt?, ofJson]
    by_cases hsigned : val < 2 ^ 63
    · rw [if_pos hsigned, if_pos hsigned]
      refine .inl ⟨_, rfl, rfl, ?_⟩
      rw [Int64.toInt_ofInt_of_le low hsigned]
    · rw [if_neg hsigned, if_neg hsigned]
      exact .inr ⟨rfl, rfl, Binary64.isFinite_ofInt_unsigned (Int.not_lt.mp hsigned) high⟩
  | float y =>
    obtain rfl := Option.some.inj h
    exact .inr ⟨rfl, rfl, y.finite⟩
  | null | bool _ | text _ | array _ | object _ => cases h

theorem kind_of_asInt?_eq_none {i : Json} {x : Binary64} (hi : (json i).asFloat? = some x)
    (h : (json i).asInt? = none) : (ofJson i).kind ≠ .int := by
  rcases ofJson_number hi with ⟨n, hn, -, -⟩ | ⟨-, hx, -⟩
  · rw [h] at hn
    cases hn
  · rw [hx]
    exact nofun

theorem isNumber_ofJson {i : Json} {x : Binary64} (h : (json i).asFloat? = some x) :
    (ofJson i).IsNumber ∧ (ofJson i).rank = x.key := by
  rcases ofJson_number h with ⟨n, -, hn, rfl⟩ | ⟨-, hx, hfinite⟩
  · rw [hn]
    exact ⟨.int n, rfl⟩
  · rw [hx]
    exact ⟨.float x hfinite, rfl⟩

theorem key_of_same {i j : Json} {x y : Binary64} (h : i.same j = true)
    (hi : (json i).asFloat? = some x) (hj : (json j).asFloat? = some y) : x.key = y.key := by
  cases i with
  | whole m =>
    cases j with
    | whole n =>
      obtain rfl := Option.some.inj hi
      obtain rfl := Option.some.inj hj
      rw [eq_of_beq h]
    | float _ => cases h
    | null | bool _ | text _ | array _ | object _ => cases hj
  | float x' =>
    cases j with
    | float y' =>
      obtain rfl := Option.some.inj hi
      obtain rfl := Option.some.inj hj
      exact eq_of_beq h
    | whole _ => cases h
    | null | bool _ | text _ | array _ | object _ => cases hj
  | null | bool _ | text _ | array _ | object _ => cases hi

theorem exists_whole_of_ofJson {i : Json} {n : Int64} (h : ofJson i = .int n) :
    ∃ m : Whole, i = .whole m ∧ m.val = n.toInt := by
  cases i with
  | whole m =>
    rw [ofJson] at h
    split at h
    · rename_i hsigned
      obtain rfl := Value.int.inj h
      exact ⟨m, rfl, (Int64.toInt_ofInt_of_le m.low hsigned).symm⟩
    · cases h
  | null | bool _ | float _ | text _ | array _ | object _ => cases h

/-- Numbers that are integers as native values are the same in JSON if they are equal. -/
theorem same_iff_of_int {i j : Json} {m n : Int64} (hm : ofJson i = .int m)
    (hn : ofJson j = .int n) : i.same j = true ↔ m = n := by
  obtain ⟨u, rfl, hu⟩ := exists_whole_of_ofJson hm
  obtain ⟨v, rfl, hv⟩ := exists_whole_of_ofJson hn
  rw [Json.same, beq_iff_eq, hu, hv, Int64.toInt_inj]

/-! ### Two scalars -/

/-- Equality of two numbers as native values. -/
theorem order_number_eq {i j : Json} {x y : Binary64} (hi : (json i).asFloat? = some x)
    (hj : (json j).asFloat? = some y) :
    (ofJson i).order (ofJson j) = .ok .eq ↔ i.same j = true ∨ i.RoundedTogether j := by
  obtain ⟨hnumber, hrank⟩ := isNumber_ofJson hi
  obtain ⟨hnumber', hrank'⟩ := isNumber_ofJson hj
  by_cases hbeyond : (json i).asInt? = none ∨ (json j).asInt? = none
  · have hfloat : (ofJson i).kind ≠ .int ∨ (ofJson j).kind ≠ .int :=
      hbeyond.imp (kind_of_asInt?_eq_none hi) (kind_of_asInt?_eq_none hj)
    rw [order_rank hnumber hnumber' hfloat, hrank, hrank', Except.ok.injEq, Int.compare_eq_eq]
    constructor
    · intro hkey
      cases hsame : i.same j with
      | true => exact .inl rfl
      | false => exact .inr ⟨hsame, hbeyond, x, y, hi, hj, hkey⟩
    · rintro (hsame | hrounded)
      · exact key_of_same hsame hi hj
      · obtain ⟨x', y', hx, hy, hkey⟩ := hrounded.together
        rw [hi] at hx
        rw [hj] at hy
        obtain rfl := Option.some.inj hx
        obtain rfl := Option.some.inj hy
        exact hkey
  · obtain ⟨hm, hn⟩ := not_or.mp hbeyond
    obtain ⟨m, -, hm, -⟩ := (ofJson_number hi).resolve_right fun h => hm h.1
    obtain ⟨n, -, hn, -⟩ := (ofJson_number hj).resolve_right fun h => hn h.1
    rw [hm, hn, order_int, Except.ok.injEq, Int.compare_eq_eq, Int64.toInt_inj,
      ← same_iff_of_int hm hn]
    exact (or_iff_left fun hrounded => hbeyond hrounded.beyond).symm

theorem not_roundedTogether {i j : Json} (h : (json i).asFloat? = none) :
    ¬ i.RoundedTogether j := by
  intro hrounded
  obtain ⟨x, y, hx, -, -⟩ := hrounded.together
  rw [h] at hx
  cases hx

/-- Scalars of one sort have an order as native values, and it tells which of them are the same,
numbers that are rounded together apart. -/
theorem order_of_sameSort {i j : Json} (h : i.SameSort j) :
    (∃ o, (ofJson i).order (ofJson j) = .ok o) ∧
      ((ofJson i).order (ofJson j) = .ok .eq ↔ i.same j = true ∨ i.RoundedTogether j) := by
  cases h with
  | bool a b =>
    refine ⟨⟨_, rfl⟩, ?_⟩
    rw [or_iff_left (not_roundedTogether rfl)]
    show Except.ok (compare a.toNat b.toNat) = .ok .eq ↔ (a == b) = true
    rw [Except.ok.injEq, Nat.compare_eq_eq]
    cases a <;> cases b <;> decide
  | text s t =>
    refine ⟨⟨_, rfl⟩, ?_⟩
    rw [or_iff_left (not_roundedTogether rfl)]
    show Except.ok (compareOfLessAndEq s t) = .ok .eq ↔ (s == t) = true
    rw [Except.ok.injEq, compareOfLessAndEq_eq_eq String.le_refl String.not_le, beq_iff_eq]
  | number hi hj =>
    exact ⟨exists_order (isNumber_ofJson hi).1 (isNumber_ofJson hj).1, order_number_eq hi hj⟩

theorem ne_null_of_order {i : Json} {v : Value} {o : Ordering} (h : (ofJson i).order v = .ok o) :
    i ≠ .null := by
  rintro rfl
  exact nomatch isNull_left_of_order h

theorem sameSort_of_bool {b : Bool} {j : Json} {o : Ordering} (hj : j.isContainer = false)
    (h : (bool b).order (ofJson j) = .ok o) : Json.SameSort (.bool b) j := by
  cases j with
  | bool c => exact .bool b c
  | whole n =>
    rw [ofJson] at h
    split at h <;> cases h
  | null | float _ | text _ => cases h
  | array _ | object _ => cases hj

theorem sameSort_of_text {s : String} {j : Json} {o : Ordering} (hj : j.isContainer = false)
    (h : (text s).order (ofJson j) = .ok o) : Json.SameSort (.text s) j := by
  cases j with
  | text t => exact .text s t
  | whole n =>
    rw [ofJson] at h
    split at h <;> cases h
  | null | bool _ | float _ => cases h
  | array _ | object _ => cases hj

/-- A scalar that is no number has an order with scalars of its own sort alone. -/
theorem sameSort_of_asFloat?_eq_none {i j : Json} {o : Ordering} (hi : i.isContainer = false)
    (hj : j.isContainer = false) (hnone : (json i).asFloat? = none)
    (h : (ofJson i).order (ofJson j) = .ok o) : i.SameSort j := by
  cases i with
  | null => exact absurd rfl (ne_null_of_order h)
  | bool b => exact sameSort_of_bool hj h
  | text s => exact sameSort_of_text hj h
  | whole _ | float _ => cases hnone
  | array _ | object _ => cases hi

/-- Scalars that have an order as native values are of one sort. -/
theorem sameSort_of_order {i j : Json} {o : Ordering} (hi : i.isContainer = false)
    (hj : j.isContainer = false) (h : (ofJson i).order (ofJson j) = .ok o) : i.SameSort j := by
  cases hx : (json i).asFloat? with
  | none => exact sameSort_of_asFloat?_eq_none hi hj hx h
  | some x =>
    cases hy : (json j).asFloat? with
    | none => exact (sameSort_of_asFloat?_eq_none hj hi hy (order_swap h)).symm
    | some y => exact .number hx hy

/-- Scalars that are the same are of one sort or both null. -/
theorem sameSort_of_same {i j : Json} (hi : i.isContainer = false) (h : i.same j = true) :
    i = .null ∧ j = .null ∨ i.SameSort j := by
  cases i with
  | null =>
    cases j with
    | null => exact .inl ⟨rfl, rfl⟩
    | bool _ | whole _ | float _ | text _ | array _ | object _ => cases h
  | bool a =>
    cases j with
    | bool b => exact .inr (.bool a b)
    | null | whole _ | float _ | text _ | array _ | object _ => cases h
  | whole m =>
    cases j with
    | whole n => exact .inr (.number rfl rfl)
    | null | bool _ | float _ | text _ | array _ | object _ => cases h
  | float x =>
    cases j with
    | float y => exact .inr (.number rfl rfl)
    | null | bool _ | whole _ | text _ | array _ | object _ => cases h
  | text s =>
    cases j with
    | text t => exact .inr (.text s t)
    | null | bool _ | whole _ | float _ | array _ | object _ => cases h
  | array _ | object _ => cases hi

theorem looselyEquals_ofJson {i j : Json} (hi : i.isContainer = false)
    (hj : j.isContainer = false) :
    (ofJson i).looselyEquals (ofJson j) = true ↔ i.same j = true ∨ i.RoundedTogether j := by
  obtain ⟨hjson, hlist⟩ := kind_ofJson hi
  rw [looselyEquals_of_kind (.inl hjson) (.inl hlist), Bool.or_eq_true, Bool.and_eq_true,
    isEqual_iff, isNull_ofJson, isNull_ofJson]
  constructor
  · rintro (⟨hnull, hnull'⟩ | heq)
    · rw [eq_null_of_isNull hnull, eq_null_of_isNull hnull']
      exact .inl rfl
    · exact (order_of_sameSort (sameSort_of_order hi hj heq)).2.mp heq
  · intro heq
    rcases heq.elim (sameSort_of_same hi) fun h => .inr h.sameSort with ⟨rfl, rfl⟩ | hsort
    · exact .inl ⟨rfl, rfl⟩
    · exact .inr ((order_of_sameSort hsort).2.mpr heq)

/-! ### Both ways of comparing -/

def Mismatched (a b : Value) : Prop :=
  ∃ k l, a.order b = .error (.typeMismatch k l)

theorem order_or_mismatched (a b : Value) : (∃ o, a.order b = .ok o) ∨ Mismatched a b := by
  rw [Mismatched, order_eq]
  split
  · exact .inr ⟨.json, .json, rfl⟩
  · rw [compareNative]
    cases compareNative? a.native b.native with
    | some o => exact .inl ⟨o, rfl⟩
    | none => exact .inr ⟨_, _, rfl⟩

/-- Whether two pairs of values have the same order, or both have none. -/
def OrderedAlike (a b c d : Value) : Prop :=
  (∃ o, a.order b = .ok o ∧ c.order d = .ok o) ∨ Mismatched a b ∧ Mismatched c d

theorem orderedAlike_of_eq {a b c d : Value} (h : a.order b = c.order d) : OrderedAlike a b c d := by
  rcases order_or_mismatched a b with ⟨o, ho⟩ | ⟨k, l, hkl⟩
  · exact .inl ⟨o, ho, h ▸ ho⟩
  · exact .inr ⟨⟨k, l, hkl⟩, k, l, h ▸ hkl⟩

theorem orderedAlike_scalars_iff {i j : Json} (hi : i.isContainer = false)
    (hj : j.isContainer = false) :
    OrderedAlike (json i) (json j) (ofJson i) (ofJson j) ↔ ¬ i.SameSort j := by
  constructor
  · rintro (⟨o, ho, -⟩ | ⟨-, k, l, hkl⟩) hsort
    · cases ho
    · obtain ⟨o, ho⟩ := (order_of_sameSort hsort).1
      rw [hkl] at ho
      cases ho
  · intro hsorts
    refine .inr ⟨⟨.json, .json, rfl⟩, (order_or_mismatched _ _).resolve_left ?_⟩
    rintro ⟨o, ho⟩
    exact hsorts (sameSort_of_order hi hj ho)

/-- A JSON scalar is compared with a value that is not JSON as the native value it is, on either
side. Two scalars have the answer of their native values if and only if those have no order, and
they are equal like those unless they are rounded together. -/
theorem scalars_compared_iff {i j : Json} (hi : i.isContainer = false)
    (hj : j.isContainer = false) :
    (∀ v : Value, v.kind ≠ .json →
        (OrderedAlike (json i) v (ofJson i) v ∧
          (json i).looselyEquals v = (ofJson i).looselyEquals v) ∧
        OrderedAlike v (json i) v (ofJson i) ∧
          v.looselyEquals (json i) = v.looselyEquals (ofJson i)) ∧
      (OrderedAlike (json i) (json j) (ofJson i) (ofJson j) ↔ ¬ i.SameSort j) ∧
      ((json i).looselyEquals (json j) = (ofJson i).looselyEquals (ofJson j) ↔
        ¬ i.RoundedTogether j) := by
  refine ⟨fun v hv => ⟨⟨orderedAlike_of_eq (order_ofJson_left hi hv),
    looselyEquals_ofJson_left hi hv⟩, orderedAlike_of_eq (order_ofJson_right hi hv), ?_⟩,
    orderedAlike_scalars_iff hi hj, ?_⟩
  · rw [looselyEquals_comm v, looselyEquals_comm v, looselyEquals_ofJson_left hi hv]
  · rw [looselyEquals_json, Bool.eq_iff_iff, looselyEquals_ofJson hi hj]
    constructor
    · intro hsame hrounded
      rw [hrounded.differ] at hsame
      exact nomatch hsame.mpr (.inr hrounded)
    · intro hapart
      rw [or_iff_left hapart]

/-- An integer beyond the signed range and the float it is rounded to. -/
theorem scalars_compared_iff_of_rounded :
    ∃ i j : Json,
      i = .whole ⟨9223372036854775808, by decide, by decide⟩ ∧
      j = .float ⟨⟨0x43E0000000000000⟩, by decide⟩ ∧
      i.isContainer = false ∧ j.isContainer = false ∧ i.SameSort j ∧ i.RoundedTogether j ∧
      (∀ v : Value, v.kind ≠ .json → (json i).looselyEquals v = (ofJson i).looselyEquals v) ∧
      (OrderedAlike (json i) (json j) (ofJson i) (ofJson j) ↔ ¬ i.SameSort j) ∧
      ((json i).looselyEquals (json j) = (ofJson i).looselyEquals (ofJson j) ↔
        ¬ i.RoundedTogether j) :=
  have h := scalars_compared_iff (i := .whole ⟨9223372036854775808, by decide, by decide⟩)
    (j := .float ⟨⟨0x43E0000000000000⟩, by decide⟩) rfl rfl
  ⟨_, _, rfl, rfl, rfl, rfl, .number rfl rfl, ⟨rfl, .inl rfl, _, _, rfl, rfl, rfl⟩,
    fun v hv => (h.1 v hv).1.2, h.2⟩

/-- The numbers 5 and 3 have an order as native values and none as JSON, and 1 equals 1.0 as native
values and not as JSON. -/
theorem json_numbers_have_no_order :
    (json (.whole ⟨5, by decide, by decide⟩)).order (json (.whole ⟨3, by decide, by decide⟩)) =
        .error (.typeMismatch .json .json) ∧
      (ofJson (.whole ⟨5, by decide, by decide⟩)).order
        (ofJson (.whole ⟨3, by decide, by decide⟩)) = .ok .gt ∧
      (json (.whole ⟨1, by decide, by decide⟩)).looselyEquals (json (.float ⟨.one, by decide⟩)) =
        false ∧
      (ofJson (.whole ⟨1, by decide, by decide⟩)).looselyEquals
        (ofJson (.float ⟨.one, by decide⟩)) = true :=
  ⟨rfl, rfl, rfl, rfl⟩

end Value

end QueryChain
