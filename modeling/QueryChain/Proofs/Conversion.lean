import QueryChain.Proofs.Rounding
import QueryChain.Value.Basic

/-!
JSON values as native ones and back. Objects come back as they were, and so does whatever holds no
integer beyond the signed range outside of objects; such an integer comes back as the nearest float,
which is a different JSON value.
-/

namespace QueryChain

open Number

/-! ### Integers beyond the signed range -/

namespace Number

namespace Binary64

theorem isFinite_ofInt_unsigned {n : Int} (hlow : 2 ^ 63 ≤ n) (hhigh : n < 2 ^ 64) :
    (ofInt n).isFinite = true := by
  rw [isFinite, ofInt, ofQuotient, magnitude_ofMagnitude _ (round_lt _ _)]
  exact decide_eq_true (round_lt_infinity (by omega))

end Binary64

end Number

namespace Json

mutual

/-- Whether no integer outside of objects lies beyond the signed range. -/
def isSigned : Json → Bool
  | .whole n => n.val < 2 ^ 63
  | .array items => areSigned items
  | _ => true

def areSigned : List Json → Bool
  | [] => true
  | j :: rest => isSigned j && areSigned rest

end

mutual

/-- The value with the nearest floats for the integers beyond the signed range, except in objects. -/
def rounded : Json → Json
  | .whole n =>
    if h : n.val < 2 ^ 63 then .whole n
    else .float ⟨.ofInt n.val, Binary64.isFinite_ofInt_unsigned (Int.not_lt.mp h) n.high⟩
  | .array items => .array (roundedItems items)
  | j => j

def roundedItems : List Json → List Json
  | [] => []
  | j :: rest => rounded j :: roundedItems rest

end

mutual

theorem rounded_eq_iff : ∀ j : Json, j.rounded = j ↔ j.isSigned = true
  | .null | .bool _ | .float _ | .text _ | .object _ => iff_of_true rfl rfl
  | .whole n => by
    by_cases h : n.val < 2 ^ 63
    · exact iff_of_true (dif_pos h) (decide_eq_true h)
    · rw [rounded, dif_neg h]
      exact iff_of_false nofun (by rw [isSigned, decide_eq_false h]; decide)
  | .array items => by
    rw [rounded, array.injEq, isSigned]
    exact roundedItems_eq_iff items

theorem roundedItems_eq_iff : ∀ items : List Json,
    roundedItems items = items ↔ areSigned items = true
  | [] => iff_of_true rfl rfl
  | j :: rest => by
    rw [roundedItems, List.cons.injEq, areSigned, Bool.and_eq_true, rounded_eq_iff j,
      roundedItems_eq_iff rest]

end

end Json

namespace Value

theorem toJson_ofJson_whole (n : Whole) : (ofJson (.whole n)).toJson = (Json.whole n).rounded := by
  obtain ⟨val, low, high⟩ := n
  rw [ofJson, Json.rounded]
  by_cases h : val < 2 ^ 63
  · have hval : (Int64.ofInt val).toInt = val := Int64.toInt_ofInt_of_le low h
    rw [if_pos h, dif_pos h]
    simp only [toJson, Libraries.toJson, Json.ofInt64, hval]
  · have hfinite := Binary64.isFinite_ofInt_unsigned (Int.not_lt.mp h) high
    rw [if_neg h, dif_neg h, toJson, Libraries.toJson, dif_pos hfinite]

mutual

theorem toJson_ofJson : ∀ j : Json, (ofJson j).toJson = j.rounded
  | .null | .bool _ | .text _ | .object _ => rfl
  | .whole n => toJson_ofJson_whole n
  | .float x => dif_pos x.finite
  | .array items => congrArg Json.array (toJsonItems_ofJsonItems items)

theorem toJsonItems_ofJsonItems : ∀ items : List Json,
    Libraries.own.toJsonItems (ofJsonItems items) = Json.roundedItems items
  | [] => rfl
  | j :: rest => congr (congrArg List.cons (toJson_ofJson j)) (toJsonItems_ofJsonItems rest)

end

end Value

end QueryChain
