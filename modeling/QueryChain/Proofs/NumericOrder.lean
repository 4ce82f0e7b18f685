import QueryChain.Proofs.Rounding
import QueryChain.Proofs.Sorting

/-!
The order of integers and finite floats together. Integers are compared with each other exactly and
with floats by the nearest float, so the order is transitive except where a float stands between
two different integers that are both rounded to it.
-/

namespace QueryChain

open Number

namespace Value

inductive IsNumber : Value → Prop
  | int (n : Int64) : IsNumber (.int n)
  | float (x : Binary64) (h : x.isFinite = true) : IsNumber (.float x)

def rank : Value → Int
  | .int n => (Binary64.ofInt n.toInt).key
  | .float x => x.key
  | _ => 0

/-- Whether a float stands between two different integers that are rounded to it. -/
inductive Merged : Value → Value → Value → Prop
  | intro (m n : Int64) (x : Binary64) (hne : m ≠ n) (hm : (Binary64.ofInt m.toInt).key = x.key)
      (hn : (Binary64.ofInt n.toInt).key = x.key) : Merged (.int m) (.float x) (.int n)

/-! ### Two numbers -/

theorem order_int (m n : Int64) : (int m).order (int n) = .ok (compare m.toInt n.toInt) :=
  rfl

theorem isNan_of_isFinite {x : Binary64} (h : x.isFinite = true) : x.isNan = false := by
  rw [Binary64.isFinite, decide_eq_true_eq] at h
  rw [Binary64.isNan, decide_eq_false_iff_not]
  omega

theorem compare?_key {x y : Binary64} (hx : x.isNan = false) (hy : y.isNan = false) :
    x.compare? y = some (compare x.key y.key) := by
  rw [Binary64.compare?, hx, hy]
  rfl

/-- Wherever a float takes part, numbers are compared as floats. -/
theorem order_rank {a b : Value} (ha : a.IsNumber) (hb : b.IsNumber)
    (hfloat : a.kind ≠ .int ∨ b.kind ≠ .int) : a.order b = .ok (compare a.rank b.rank) := by
  rw [order_eq]
  cases ha with
  | int m =>
    cases hb with
    | int n => exact absurd rfl (hfloat.elim id id)
    | float y hy =>
      exact compareNative_ok.mpr (compare?_key (Binary64.isNan_ofInt _) (isNan_of_isFinite hy))
  | float x hx =>
    cases hb with
    | int n =>
      exact compareNative_ok.mpr (compare?_key (isNan_of_isFinite hx) (Binary64.isNan_ofInt _))
    | float y hy =>
      exact compareNative_ok.mpr (compare?_key (isNan_of_isFinite hx) (isNan_of_isFinite hy))

theorem exists_order {a b : Value} (ha : a.IsNumber) (hb : b.IsNumber) :
    ∃ o, a.order b = .ok o := by
  cases ha with
  | int m =>
    cases hb with
    | int n => exact ⟨_, order_int m n⟩
    | float y hy => exact ⟨_, order_rank (.int m) (.float y hy) (.inr nofun)⟩
  | float x hx => exact ⟨_, order_rank (.float x hx) hb (.inl nofun)⟩

theorem atMost_of_order {a b : Value} {o : Ordering} (h : a.order b = .ok o) :
    a.AtMost b ↔ o ≠ .gt := by
  simp only [AtMost, h, Except.ok.injEq, exists_eq_left']

theorem atMost_int (m n : Int64) : (int m).AtMost (int n) ↔ m.toInt ≤ n.toInt := by
  rw [atMost_of_order (order_int m n), Int.compare_ne_gt]

theorem atMost_rank {a b : Value} (ha : a.IsNumber) (hb : b.IsNumber)
    (hfloat : a.kind ≠ .int ∨ b.kind ≠ .int) : a.AtMost b ↔ a.rank ≤ b.rank := by
  rw [atMost_of_order (order_rank ha hb hfloat), Int.compare_ne_gt]

theorem AtMost.rank_le {a b : Value} (h : a.AtMost b) (ha : a.IsNumber) (hb : b.IsNumber) :
    a.rank ≤ b.rank := by
  cases ha with
  | int m =>
    cases hb with
    | int n => exact Binary64.key_ofInt_mono ((atMost_int m n).mp h)
    | float y hy => exact (atMost_rank (.int m) (.float y hy) (.inr nofun)).mp h
  | float x hx => exact (atMost_rank (.float x hx) hb (.inl nofun)).mp h

/-- Of two numbers that are not in order the second comes strictly first. -/
theorem not_atMost_iff {a b : Value} (ha : a.IsNumber) (hb : b.IsNumber) :
    ¬ a.AtMost b ↔ b.order a = .ok .lt := by
  obtain ⟨o, ho⟩ := exists_order ha hb
  rw [atMost_of_order ho, order_swap ho]
  cases o <;> simp

theorem order_eq_iff {a b : Value} (ha : a.IsNumber) (hb : b.IsNumber) :
    a.order b = .ok .eq ↔ a.AtMost b ∧ b.AtMost a := by
  obtain ⟨o, ho⟩ := exists_order ha hb
  rw [atMost_of_order ho, atMost_of_order (order_swap ho), ho]
  cases o <;> simp

/-! ### Three numbers -/

/-- Where the order is not transitive, integers are merged by the float between them. -/
theorem atMost_trans_or_merged {a b c : Value} (ha : a.IsNumber) (hb : b.IsNumber) (hc : c.IsNumber)
    (hab : a.AtMost b) (hbc : b.AtMost c) : a.AtMost c ∨ Merged a b c := by
  have hle := hab.rank_le ha hb
  have hle' := hbc.rank_le hb hc
  cases ha with
  | float x hx => exact .inl ((atMost_rank (.float x hx) hc (.inl nofun)).mpr (by omega))
  | int m =>
    cases hc with
    | float z hz => exact .inl ((atMost_rank (.int m) (.float z hz) (.inr nofun)).mpr (by omega))
    | int n =>
      rw [atMost_int]
      cases hb with
      | int k =>
        rw [atMost_int] at hab hbc
        exact .inl (by omega)
      | float y hy =>
        by_cases hmn : m.toInt ≤ n.toInt
        · exact .inl hmn
        · have hnm := Int.not_le.mp hmn
          -- The ranks of the integers cannot be the other way round, so all three agree.
          have hback := Binary64.key_ofInt_mono (Int.le_of_lt hnm)
          refine .inr (.intro m n y ?_ ?_ ?_)
          · rintro rfl
            exact Int.lt_irrefl _ hnm
          · exact Int.le_antisymm hle (Int.le_trans hle' hback)
          · exact Int.le_antisymm (Int.le_trans hback hle) hle'

theorem Merged.symm {a b c : Value} (h : Merged a b c) : Merged c b a := by
  cases h with
  | intro m n x hne hm hn => exact .intro n m x hne.symm hn hm

theorem Merged.order_ne {a b c : Value} (h : Merged a b c) : a.order c ≠ .ok .eq := by
  cases h with
  | intro m n x hne hm hn =>
    intro heq
    exact hne (Int64.toInt_inj.mp (Int.compare_eq_eq.mp (Except.ok.inj heq)))

/-- Integers below `2 ^ 53` in size are not merged. -/
theorem Merged.le_natAbs {a b c : Value} (h : Merged a b c) {n : Int64} (hn : a = .int n) :
    2 ^ 53 ≤ n.toInt.natAbs := by
  subst hn
  cases h with
  | intro n m x hne hn hm =>
    by_contra hsmall
    have hne' : n.toInt ≠ m.toInt := fun heq => hne (Int64.toInt_inj.mp heq)
    rcases Int.lt_or_gt_of_ne hne' with hlt | hgt
    · have := Binary64.key_ofInt_strictMono (.inl (Nat.not_le.mp hsmall)) hlt
      omega
    · have := Binary64.key_ofInt_strictMono (.inr (Nat.not_le.mp hsmall)) hgt
      omega

/-- Any two numbers have an order, and two steps of it compose, as do two equalities, except where
a float stands between two different integers that are rounded to it; both of these then have a
size of at least `2 ^ 53`. -/
theorem numbers_ordered_iff {a b c : Value} (ha : a.IsNumber) (hb : b.IsNumber)
    (hc : c.IsNumber) :
    (∃ o, a.order b = .ok o) ∧
      (a.AtMost b → b.AtMost c → (a.AtMost c ↔ ¬ (Merged a b c ∧ c.order a = .ok .lt))) ∧
      (a.order b = .ok .eq → b.order c = .ok .eq → (a.order c = .ok .eq ↔ ¬ Merged a b c)) ∧
      (Merged a b c → ∀ n, a = .int n ∨ c = .int n → 2 ^ 53 ≤ n.toInt.natAbs) := by
  refine ⟨exists_order ha hb, fun hab hbc => ?_, fun hab hbc => ?_, fun hmerged n hn => ?_⟩
  · rw [← not_atMost_iff ha hc]
    constructor
    · exact fun hac hmerged => hmerged.2 hac
    · intro hapart
      by_contra hac
      exact hapart ⟨(atMost_trans_or_merged ha hb hc hab hbc).resolve_left hac, hac⟩
  · refine ⟨fun hac hmerged => hmerged.order_ne hac, fun hapart => ?_⟩
    rw [order_eq_iff ha hb] at hab
    rw [order_eq_iff hb hc] at hbc
    rw [order_eq_iff ha hc]
    constructor
    · exact (atMost_trans_or_merged ha hb hc hab.1 hbc.1).resolve_right hapart
    · exact (atMost_trans_or_merged hc hb ha hbc.2 hab.2).resolve_right (hapart ·.symm)
  · rcases hn with hn | hn
    · exact hmerged.le_natAbs hn
    · exact hmerged.symm.le_natAbs hn

/-- The integer behind `2 ^ 53` between the float it is rounded to and the next one. -/
theorem numbers_ordered_iff_of_floats :
    ∃ a b c : Value,
      a = float ⟨0x4340000000000000⟩ ∧ b = int 9007199254740993 ∧
      c = float ⟨0x4340000000000001⟩ ∧ a.IsNumber ∧ b.IsNumber ∧ c.IsNumber ∧
      a.order b = .ok .eq ∧ b.order c = .ok .lt ∧
      (a.AtMost c ↔ ¬ (Merged a b c ∧ c.order a = .ok .lt)) :=
  have ha : (float ⟨0x4340000000000000⟩).IsNumber := .float _ rfl
  have hc : (float ⟨0x4340000000000001⟩).IsNumber := .float _ rfl
  ⟨_, _, _, rfl, rfl, rfl, ha, .int _, hc, rfl, rfl,
    (numbers_ordered_iff ha (.int _) hc).2.1 ⟨_, rfl, nofun⟩ ⟨_, rfl, nofun⟩⟩

/-- The integer behind `2 ^ 53` equals the float `2 ^ 53`, and this float equals the integer
`2 ^ 53`, which is less than the first one. -/
theorem rounded_integer_above_equal :
    (int 9007199254740993).order (float ⟨0x4340000000000000⟩) = .ok .eq ∧
      (float ⟨0x4340000000000000⟩).order (int 9007199254740992) = .ok .eq ∧
      (int 9007199254740993).order (int 9007199254740992) = .ok .gt :=
  ⟨rfl, rfl, rfl⟩

end Value

end QueryChain
