import QueryChain.Number.Binary

/-!
Integers rounded to floats. Rounding keeps the order of integers, up to equality; integers below
`2 ^ 53` are exact and so are kept apart from each other and from the larger ones.
-/

namespace QueryChain.Number

/-! ### Nearest quotients -/

namespace Format

theorem nearest_le (num den : Nat) : nearest num den ≤ num / den + 1 := by
  rw [nearest]
  split
  · omega
  · split <;> omega

theorem le_nearest (num den : Nat) : num / den ≤ nearest num den := by
  rw [nearest]
  split
  · omega
  · split <;> omega

theorem nearest_mono {m n : Nat} (den : Nat) (h : m ≤ n) : nearest m den ≤ nearest n den := by
  rcases Nat.lt_or_eq_of_le (Nat.div_le_div_right (c := den) h) with hlt | heq
  · exact Nat.le_trans (nearest_le m den) (Nat.le_trans hlt (le_nearest n den))
  · -- With one quotient the remainders are ordered as the numbers are.
    have hrest : m % den ≤ n % den := by
      have hm := Nat.div_add_mod m den
      have hn := Nat.div_add_mod n den
      rw [heq] at hm
      omega
    simp only [nearest, heq]
    split <;> split <;> (try split) <;> (try split) <;> omega

theorem nearest_one (n : Nat) : nearest n 1 = n := by
  rw [nearest, Nat.mod_one, Nat.div_one]
  rfl

end Format

/-! ### The magnitude of an integer -/

/-- The significand of full width to which a positive integer is rounded; it may be one too wide. -/
def fullSignificand (n : Nat) : Nat :=
  if 52 ≤ n.log2 then Format.nearest n (2 ^ (n.log2 - 52)) else n * 2 ^ (52 - n.log2)

theorem log2_eq_of_sub {n k : Nat} (h : (n.log2 : Int) - 52 = .ofNat k) : n.log2 = 52 + k := by
  rw [Int.ofNat_eq_natCast] at h
  omega

theorem log2_add_of_sub {n k : Nat} (h : (n.log2 : Int) - 52 = .negSucc k) :
    n.log2 + (k + 1) = 52 := by
  omega

/-- A positive integer has a significand of full width at the power of two below it. -/
theorem exponentFor_one {n : Nat} (h : n ≠ 0) :
    binary64.exponentFor n 1 = (n.log2 : Int) - 52 := by
  have hlow := Nat.log2_self_le h
  have hleast : binary64.leastExponent = -1074 := by decide
  have hexponent : (n.log2 : Int) - Nat.log2 1 - binary64.fractionBits = (n.log2 : Int) - 52 := by
    have hone : Nat.log2 1 = 0 := by decide
    rw [hone]
    exact congrArg (· - 52) (Int.sub_zero _)
  rw [Format.exponentFor, hleast, hexponent]
  refine Eq.trans (congrArg (max (-1074)) (if_pos ?_)) (by omega)
  -- The number reaches the power of two, from which a significand is full.
  split
  · rename_i e he
    refine decide_eq_true ?_
    show 2 ^ 52 * 1 * 2 ^ e ≤ n
    rw [Nat.mul_one, ← Nat.pow_add, ← log2_eq_of_sub he]
    exact hlow
  · rename_i e he
    refine decide_eq_true ?_
    show 2 ^ 52 * 1 ≤ n * 2 ^ (e + 1)
    rw [Nat.mul_one, ← log2_add_of_sub he, Nat.pow_add]
    exact Nat.mul_le_mul_right _ hlow

theorem round_one {n : Nat} (h : n ≠ 0) :
    binary64.round n 1 =
      min binary64.infinity ((n.log2 + 1022) * 2 ^ 52 + fullSignificand n) := by
  have hleast : binary64.leastExponent = -1074 := by decide
  have hplace : ((n.log2 : Int) - 52 - -1074).toNat = n.log2 + 1022 := by omega
  rw [Format.round, if_neg h, exponentFor_one h, hleast]
  show min _ (((n.log2 : Int) - 52 - -1074).toNat * 2 ^ 52 + _) = _
  rw [hplace]
  refine congrArg (fun m => min binary64.infinity ((n.log2 + 1022) * 2 ^ 52 + m)) ?_
  split
  · rename_i e he
    have hlog := log2_eq_of_sub he
    rw [fullSignificand, if_pos (by omega), Nat.one_mul, hlog, Nat.add_sub_cancel_left]
  · rename_i e he
    have hlog := log2_add_of_sub he
    rw [fullSignificand, if_neg (by omega), Format.nearest_one, ← hlog, Nat.add_sub_cancel_left]

theorem fullSignificand_of_lt {n : Nat} (h : n < 2 ^ 53) :
    fullSignificand n = n * 2 ^ (52 - n.log2) := by
  rw [fullSignificand]
  split
  · rename_i hlarge
    have hlog : n.log2 = 52 := by
      by_cases hzero : n = 0
      · subst hzero
        exact absurd hlarge (by decide)
      · have := (Nat.log2_lt hzero).mpr h
        omega
    rw [hlog, Nat.sub_self, Nat.pow_zero, Format.nearest_one, Nat.mul_one]
  · rfl

theorem le_fullSignificand {n : Nat} (h : n ≠ 0) : 2 ^ 52 ≤ fullSignificand n := by
  have hlow := Nat.log2_self_le h
  rw [fullSignificand]
  split
  · rename_i hlarge
    refine Nat.le_trans ?_ (Format.le_nearest n _)
    rw [Nat.le_div_iff_mul_le (Nat.two_pow_pos _), ← Nat.pow_add, Nat.add_sub_cancel' hlarge]
    exact hlow
  · rename_i hsmall
    calc 2 ^ 52 = 2 ^ n.log2 * 2 ^ (52 - n.log2) := by
          rw [← Nat.pow_add, Nat.add_sub_cancel' (by omega)]
      _ ≤ n * 2 ^ (52 - n.log2) := Nat.mul_le_mul_right _ hlow

/-- Rounding up may reach the next power of two. -/
theorem fullSignificand_le (n : Nat) : fullSignificand n ≤ 2 ^ 53 := by
  have hhigh := Nat.lt_log2_self (n := n)
  rw [fullSignificand]
  split
  · rename_i hlarge
    refine Nat.le_trans (Format.nearest_le n _) (Nat.succ_le_of_lt ?_)
    rw [Nat.div_lt_iff_lt_mul (Nat.two_pow_pos _), ← Nat.pow_add,
      show 53 + (n.log2 - 52) = n.log2 + 1 by omega]
    exact hhigh
  · rename_i hsmall
    calc n * 2 ^ (52 - n.log2) ≤ 2 ^ (n.log2 + 1) * 2 ^ (52 - n.log2) :=
          Nat.mul_le_mul_right _ (Nat.le_of_lt hhigh)
      _ = 2 ^ 53 := by rw [← Nat.pow_add, show n.log2 + 1 + (52 - n.log2) = 53 by omega]

theorem fullSignificand_mono {m n : Nat} (hlog : m.log2 = n.log2) (h : m ≤ n) :
    fullSignificand m ≤ fullSignificand n := by
  rw [fullSignificand, fullSignificand, hlog]
  split
  · exact Format.nearest_mono _ h
  · exact Nat.mul_le_mul_right _ h

theorem log2_mono {m n : Nat} (h : m ≤ n) : m.log2 ≤ n.log2 := by
  by_cases hm : m = 0
  · rw [hm]
    exact Nat.zero_le _
  · exact (Nat.le_log2 (by omega)).mpr (Nat.le_trans (Nat.log2_self_le hm) h)

theorem round_mono {m n : Nat} (h : m ≤ n) : binary64.round m 1 ≤ binary64.round n 1 := by
  by_cases hm : m = 0
  · rw [hm, Format.round, if_pos rfl]
    exact Nat.zero_le _
  have hn : n ≠ 0 := by omega
  rw [round_one hm, round_one hn]
  rcases Nat.lt_or_eq_of_le (log2_mono h) with hlog | hlog
  · have hsmall := fullSignificand_le m
    have hlarge := le_fullSignificand hn
    omega
  · have hsignificand := fullSignificand_mono hlog h
    rw [hlog]
    omega

theorem round_le (num den : Nat) : binary64.round num den ≤ binary64.infinity := by
  rw [Format.round]
  split
  · exact Nat.zero_le _
  · exact Nat.min_le_left _ _

/-- An integer below `2 ^ 53` is exact, and no larger one is rounded to it. -/
theorem round_strictMono {m n : Nat} (hm : m < 2 ^ 53) (h : m < n) :
    binary64.round m 1 < binary64.round n 1 := by
  have hinfinity : binary64.infinity = 2047 * 2 ^ 52 := by decide
  have hn : n ≠ 0 := by omega
  have hlarge := le_fullSignificand hn
  by_cases hzero : m = 0
  · rw [hzero, Format.round, if_pos rfl, round_one hn, hinfinity]
    omega
  have hlog : m.log2 < 53 := (Nat.log2_lt hzero).mpr hm
  have hsmall : fullSignificand m < 2 ^ 53 := by
    rw [fullSignificand_of_lt hm]
    calc m * 2 ^ (52 - m.log2) < 2 ^ (m.log2 + 1) * 2 ^ (52 - m.log2) :=
          Nat.mul_lt_mul_of_pos_right Nat.lt_log2_self (Nat.two_pow_pos _)
      _ = 2 ^ 53 := by rw [← Nat.pow_add, show m.log2 + 1 + (52 - m.log2) = 53 by omega]
  rw [round_one hzero, round_one hn, hinfinity]
  rcases Nat.lt_or_eq_of_le (log2_mono (Nat.le_of_lt h)) with hnext | hsame
  · omega
  · have hfits : n < 2 ^ 53 := (Nat.log2_lt hn).mp (hsame ▸ hlog)
    have hsignificand : fullSignificand m < fullSignificand n := by
      rw [fullSignificand_of_lt hm, fullSignificand_of_lt hfits, hsame]
      exact Nat.mul_lt_mul_of_pos_right h (Nat.two_pow_pos _)
    rw [← hsame]
    omega

theorem round_lt (num den : Nat) : binary64.round num den < 2 ^ 63 := by
  have hinfinity : binary64.infinity < 2 ^ 63 := by decide
  exact Nat.lt_of_le_of_lt (round_le num den) hinfinity

/-- No integer of 64 bits is rounded to infinity. -/
theorem round_lt_infinity {n : Nat} (h : n < 2 ^ 64) : binary64.round n 1 < binary64.infinity := by
  have hinfinity : binary64.infinity = 2047 * 2 ^ 52 := by decide
  by_cases hzero : n = 0
  · rw [hzero, Format.round, if_pos rfl, hinfinity]
    decide
  · have hlog : n.log2 < 64 := (Nat.log2_lt hzero).mpr h
    have hsignificand := fullSignificand_le n
    rw [round_one hzero, hinfinity]
    omega

/-! ### The float of an integer -/

namespace Binary64

theorem toNat_ofMagnitude (negative : Bool) {m : Nat} (h : m < 2 ^ 63) :
    (ofMagnitude negative m).bits.toNat = (if negative then 2 ^ 63 else 0) + m := by
  rw [ofMagnitude, UInt64.toNat_ofNat']
  split <;> omega

theorem magnitude_ofMagnitude (negative : Bool) {m : Nat} (h : m < 2 ^ 63) :
    (ofMagnitude negative m).magnitude = m := by
  rw [magnitude, toNat_ofMagnitude negative h]
  split <;> omega

theorem negative_ofMagnitude (negative : Bool) {m : Nat} (h : m < 2 ^ 63) :
    (ofMagnitude negative m).negative = negative := by
  rw [Binary64.negative, toNat_ofMagnitude negative h]
  cases negative with
  | false => exact decide_eq_false (by rw [if_neg Bool.false_ne_true]; omega)
  | true => exact decide_eq_true (by rw [if_pos rfl]; omega)

theorem isNan_ofInt (n : Int) : (ofInt n).isNan = false := by
  rw [isNan, ofInt, ofQuotient, magnitude_ofMagnitude _ (round_lt _ _)]
  exact decide_eq_false (Nat.not_lt.mpr (round_le _ _))

theorem key_ofInt (n : Int) :
    (ofInt n).key =
      if n < 0 then -(binary64.round n.natAbs 1 : Int) else binary64.round n.natAbs 1 := by
  rw [key, ofInt, ofQuotient, magnitude_ofMagnitude _ (round_lt _ _),
    negative_ofMagnitude _ (round_lt _ _)]
  simp only [decide_eq_true_eq]

theorem key_ofInt_mono {m n : Int} (h : m ≤ n) : (ofInt m).key ≤ (ofInt n).key := by
  rw [key_ofInt, key_ofInt]
  by_cases hn : n < 0
  · have hround := round_mono (m := n.natAbs) (n := m.natAbs) (by omega)
    rw [if_pos hn, if_pos (by omega)]
    omega
  · rw [if_neg hn]
    split
    · omega
    · have hround := round_mono (m := m.natAbs) (n := n.natAbs) (by omega)
      omega

/-- Two integers of which one is below `2 ^ 53` in size are kept apart. -/
theorem key_ofInt_strictMono {m n : Int} (hsize : m.natAbs < 2 ^ 53 ∨ n.natAbs < 2 ^ 53)
    (h : m < n) : (ofInt m).key < (ofInt n).key := by
  rw [key_ofInt, key_ofInt]
  by_cases hn : n < 0
  · have hround := round_strictMono (m := n.natAbs) (n := m.natAbs) (by omega) (by omega)
    rw [if_pos hn, if_pos (by omega)]
    omega
  · rw [if_neg hn]
    split
    · have hround := round_strictMono (m := 0) (n := m.natAbs) (by decide) (by omega)
      omega
    · have hround := round_strictMono (m := m.natAbs) (n := n.natAbs) (by omega) (by omega)
      omega

end Binary64

end QueryChain.Number
