import QueryChain.Json.Printer
import QueryChain.Json.Reader

/-!
Integers in JSON text. The digits that are written for a natural number are read back as that
number, and so is an integer of 64 bits, signed or unsigned, with its sign.
-/

namespace QueryChain

open Number

/-! ### Digits -/

namespace Number

def decimalDigits : List Char := ['0', '1', '2', '3', '4', '5', '6', '7', '8', '9']

theorem mem_of_isDigit {d : Char} (h : d.isDigit = true) : d ∈ decimalDigits := by
  obtain ⟨hlow, hhigh⟩ := Char.isDigit_iff_toNat.mp h
  have hzero : '0'.toNat = 48 := rfl
  have hnine : '9'.toNat = 57 := rfl
  have hk : d.toNat - 48 < 10 := by omega
  have hd : d = Nat.digitChar (d.toNat - 48) := by
    rw [← Char.toNat_inj, Nat.toNat_digitChar_of_lt_ten hk]
    omega
  rw [hd]
  exact (by decide : ∀ k < 10, Nat.digitChar k ∈ decimalDigits) _ hk

theorem isDigit_of_mem_digitChars {n : Nat} {c : Char} (h : c ∈ digitChars n) :
    c.isDigit = true :=
  Nat.isDigit_of_mem_toDigits (by decide) (by decide) h

theorem digitChars_eq_cons (n : Nat) : ∃ d ds, digitChars n = d :: ds ∧ d.isDigit = true := by
  obtain ⟨d, ds, h⟩ := List.exists_cons_of_ne_nil (Nat.toDigits_ne_nil : digitChars n ≠ [])
  exact ⟨d, ds, h, isDigit_of_mem_digitChars (h ▸ List.mem_cons_self)⟩

/-- A number that starts with a zero is the zero. -/
theorem eq_zero_of_digitChars {n : Nat} {ds : List Char} (h : digitChars n = '0' :: ds) :
    n = 0 := by
  induction n using Nat.strongRecOn generalizing ds with
  | ind n ih =>
    rw [digitChars, Nat.toDigits_eq_if (by decide)] at h
    split at h
    · rename_i hn
      have hzero : n.digitChar.toNat = '0'.toNat := congrArg Char.toNat (List.head_eq_of_cons_eq h)
      rw [Nat.toNat_digitChar_of_lt_ten hn] at hzero
      have hcode : '0'.toNat = 48 := rfl
      omega
    · -- The leading digit is that of the tenth part, which is not zero.
      rename_i hn
      obtain ⟨c, cs, hrest, -⟩ := digitChars_eq_cons (n / 10)
      rw [digitChars] at hrest
      rw [hrest] at h
      obtain rfl := List.head_eq_of_cons_eq h
      have hzero := ih (n / 10) (by omega) hrest
      omega

theorem le_ofDigitChars (n : Nat) (ds : List Char) : n ≤ Nat.ofDigitChars 10 ds n := by
  induction ds generalizing n with
  | nil => exact Nat.le_refl n
  | cons d ds ih =>
    have hnext := ih (10 * n + (d.toNat - '0'.toNat))
    rw [Nat.ofDigitChars, List.foldl_cons]
    exact Nat.le_trans (by omega) hnext

end Number

namespace Json

/-! ### What follows a number -/

/-- Whether a text is at its end, or at the end of an item or a member. -/
def Closes : List Char → Prop
  | [] => True
  | c :: _ => c = ',' ∨ c = ']' ∨ c = Char.ofNat 0x7D

namespace Closes

theorem comma (cs : List Char) : Closes (',' :: cs) := Or.inl rfl

theorem bracket (cs : List Char) : Closes (']' :: cs) := Or.inr (.inl rfl)

theorem brace (cs : List Char) : Closes (Char.ofNat 0x7D :: cs) := Or.inr (.inr rfl)

end Closes

theorem takeDigits_append {ds rest : List Char} {n : Nat} (hds : ∀ d ∈ ds, d.isDigit = true)
    (hmax : Nat.ofDigitChars 10 ds n ≤ maxSignificand) (hrest : Closes rest) :
    takeDigits n (ds ++ rest) = (Nat.ofDigitChars 10 ds n, ds.length, rest) := by
  induction ds generalizing n with
  | nil =>
    cases rest with
    | nil => rfl
    | cons c tail =>
      rcases hrest with rfl | rfl | rfl <;> rfl
  | cons d ds ih =>
    have hd : digitValue? d = some (d.toNat - '0'.toNat) := if_pos (hds d List.mem_cons_self)
    have hnext := le_ofDigitChars (10 * n + (d.toNat - '0'.toNat)) ds
    have hds' := ih (fun x hx => hds x (List.mem_cons_of_mem d hx)) hmax
    rw [List.cons_append, takeDigits, hd]
    dsimp only
    rw [if_pos (Nat.le_trans hnext hmax), hds']
    rfl

/-- Digits are read as the number they were written for, up to the end of a value. -/
theorem readMagnitude_digitChars (negative : Bool) {n : Nat} (hn : n ≤ maxSignificand)
    {rest : List Char} (hrest : Closes rest) :
    readMagnitude negative (digitChars n ++ rest) = (integerOf negative n).map (·, rest) := by
  have hvalue : Nat.ofDigitChars 10 (digitChars n) 0 = n := Nat.ofDigitChars_ten_toDigits
  have hdigits := takeDigits_append (fun _ => isDigit_of_mem_digitChars)
    (Nat.le_trans (Nat.le_of_eq hvalue) hn) hrest
  rw [hvalue] at hdigits
  obtain ⟨d, ds, hwritten, hd⟩ := digitChars_eq_cons n
  rw [hwritten] at hdigits ⊢
  by_cases hzero : d = '0'
  · -- Behind a zero no digit is read, and none is written.
    subst hzero
    obtain rfl := eq_zero_of_digitChars hwritten
    obtain rfl : ds = [] := (List.tail_eq_of_cons_eq hwritten).symm
    cases rest with
    | nil => rfl
    | cons c tail => rcases hrest with rfl | rfl | rfl <;> rfl
  · rw [List.cons_append] at hdigits
    rw [List.cons_append, readMagnitude, if_pos hd, hdigits]
    · cases rest with
      | nil => rfl
      | cons c tail => rcases hrest with rfl | rfl | rfl <;> rfl
    · exact hzero

/-- An integer of 64 bits, signed or unsigned, is read back as it was written. -/
theorem readMagnitude_whole (n : Whole) {rest : List Char} (hrest : Closes rest) :
    (0 ≤ n.val → readMagnitude false (digitChars n.val.natAbs ++ rest) = some (.whole n, rest)) ∧
      (n.val < 0 →
        readMagnitude true (digitChars n.val.natAbs ++ rest) = some (.whole n, rest)) := by
  obtain ⟨val, low, high⟩ := n
  constructor
  · intro hval
    dsimp only at hval ⊢
    have hmax : val.natAbs ≤ maxSignificand := by
      rw [maxSignificand]
      omega
    rw [readMagnitude_digitChars false hmax hrest, integerOf, dif_pos ⟨rfl, hmax⟩]
    simp only [Option.map_some, Int.natAbs_of_nonneg hval]
  · intro hval
    dsimp only at hval ⊢
    have hmax : val.natAbs ≤ maxSignificand := by
      rw [maxSignificand]
      omega
    have hneg : -(val.natAbs : Int) = val := by omega
    rw [readMagnitude_digitChars true hmax hrest, integerOf, dif_neg (by simp),
      dif_pos (by omega)]
    simp only [Option.map_some, hneg]

end Json

end QueryChain
