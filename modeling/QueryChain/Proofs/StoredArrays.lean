import QueryChain.Proofs.Conversion
import QueryChain.Proofs.JsonText

/-!
JSON containers that are converted and then stored. An integer beyond the signed range that became a
float is written as one, with a point or an exponent, so the text that is stored for an array tells
whether anything was lost. What is said of the text rests on the layout of floats in it; what is
said of the values does not.
-/

namespace QueryChain

open Number

/-! ### Telling floats from integers -/

def floatMarks (cs : List Char) : Nat :=
  cs.countP fun c => c == '.' || c == 'e'

theorem floatMarks_append (as bs : List Char) :
    floatMarks (as ++ bs) = floatMarks as + floatMarks bs :=
  List.countP_append

theorem floatMarks_pos {cs : List Char} (h : '.' ∈ cs ∨ 'e' ∈ cs) : 0 < floatMarks cs := by
  refine List.countP_pos_iff.mpr ?_
  obtain h | h := h
  · exact ⟨_, h, rfl⟩
  · exact ⟨_, h, rfl⟩

theorem floatMarks_digitChars (n : Nat) : floatMarks (digitChars n) = 0 := by
  have hclear : decimalDigits.all (fun c => !(c == '.' || c == 'e')) = true := by decide
  refine List.countP_eq_zero.mpr fun c hc => ?_
  have hc := List.all_eq_true.mp hclear c (mem_of_isDigit (isDigit_of_mem_digitChars hc))
  simpa using hc

namespace Number

theorem Decimal.mem_positionalChars (d : Decimal) : '.' ∈ d.positionalChars true := by
  rw [positionalChars]
  dsimp only
  split
  · simp
  · split <;> simp

theorem Decimal.mem_scientificChars (plus : Bool) (d : Decimal) :
    'e' ∈ d.scientificChars plus := by
  simp [scientificChars]

/-- A layout that keeps the point of whole numbers marks every finite float. -/
theorem Layout.floatMarks_write {l : Layout} (hl : l.pointZero = true) {x : Binary64}
    (hx : x.isFinite = true) : 0 < floatMarks (l.write x).toList := by
  have hmagnitude : x.magnitude < binary64.infinity := of_decide_eq_true hx
  have hnan : x.isNan = false := decide_eq_false (by omega)
  have hinfinite : x.isInfinite = false := beq_eq_false_iff_ne.mpr (by omega)
  rw [write, hnan, hinfinite]
  have hmarks : 0 < floatMarks (l.magnitudeChars x) := by
    rw [magnitudeChars]
    split
    · rw [hl]
      exact floatMarks_pos (.inl (Decimal.mem_positionalChars _))
    · exact floatMarks_pos (.inr (Decimal.mem_scientificChars _ _))
  simp [floatMarks_append]
  omega

end Number

namespace Json

theorem floatMarks_whole_lt {n : Whole} (h : ¬ n.val < 2 ^ 63) :
    floatMarks (Json.whole n).chars < floatMarks (Json.whole n).rounded.chars := by
  have hfinite := Binary64.isFinite_ofInt_unsigned (Int.not_lt.mp h) n.high
  have hplain : floatMarks (Json.whole n).chars = 0 := by
    rw [chars, intChars, if_neg (by omega), floatMarks_digitChars]
  rw [hplain, rounded, dif_neg h]
  exact Layout.floatMarks_write rfl hfinite

theorem floatMarks_array (items : List Json) :
    floatMarks (Json.array items).chars = floatMarks (itemChars items) := by
  show floatMarks (['['] ++ itemChars items ++ [']']) = _
  rw [floatMarks_append, floatMarks_append]
  show 0 + _ + 0 = _
  omega

theorem floatMarks_itemChars_cons (j : Json) (rest : List Json) :
    floatMarks (itemChars (j :: rest)) = floatMarks j.chars + floatMarks (itemChars rest) := by
  cases rest with
  | nil => rfl
  | cons k rest =>
    rw [itemChars_cons_cons, ← List.singleton_append, floatMarks_append, floatMarks_append]
    show _ + (0 + _) = _
    omega

mutual

/-- Where an integer becomes a float, the text has more marks than before. -/
theorem isSigned_or_floatMarks_lt : ∀ j : Json,
    j.isSigned = true ∨ floatMarks j.chars < floatMarks j.rounded.chars
  | .null | .bool _ | .float _ | .text _ | .object _ => .inl rfl
  | .whole n => by
    by_cases h : n.val < 2 ^ 63
    · exact .inl (decide_eq_true h)
    · exact .inr (floatMarks_whole_lt h)
  | .array items => by
    refine (areSigned_or_floatMarks_lt items).imp_right fun hmarks => ?_
    rw [rounded, floatMarks_array, floatMarks_array]
    exact hmarks

theorem areSigned_or_floatMarks_lt : ∀ items : List Json,
    areSigned items = true ∨
      floatMarks (itemChars items) < floatMarks (itemChars (roundedItems items))
  | [] => .inl rfl
  | j :: rest => by
    rw [areSigned, roundedItems, floatMarks_itemChars_cons, floatMarks_itemChars_cons]
    obtain hj | hj := isSigned_or_floatMarks_lt j
    · rw [(rounded_eq_iff j).mpr hj, hj, Bool.true_and]
      exact (areSigned_or_floatMarks_lt rest).imp_right (Nat.add_lt_add_left · _)
    · refine .inr (Nat.add_lt_add_of_lt_of_le hj ?_)
      obtain hrest | hrest := areSigned_or_floatMarks_lt rest
      · exact Nat.le_of_eq (by rw [(roundedItems_eq_iff rest).mpr hrest])
      · exact Nat.le_of_lt hrest

end

theorem render_rounded_eq_iff (j : Json) : j.rounded.render = j.render ↔ j.isSigned = true := by
  refine ⟨fun heq => ?_, fun h => by rw [(rounded_eq_iff j).mpr h]⟩
  have hchars : j.rounded.chars = j.chars := String.ofList_injective heq
  refine j.isSigned_or_floatMarks_lt.resolve_right fun hmarks => ?_
  rw [hchars] at hmarks
  exact Nat.lt_irrefl _ hmarks

end Json

/-! ### There and back -/

namespace Value

/-- A text is not its own JSON text, which has quotes. -/
theorem text_ne_render (s : String) : s ≠ (Json.text s).render := by
  intro heq
  have hchars : s.toList = Json.stringChars s := by
    have htext := congrArg String.toList heq
    rwa [Json.render, String.toList_ofList] at htext
  have hlength := congrArg List.length hchars
  have hescaped := Json.length_le_flatMap_escape s.toList
  rw [Json.stringChars, List.length_append, List.length_cons] at hlength
  omega

/-- A container is stored as its JSON text just if it holds no integer beyond the signed range
outside of objects; no scalar is. -/
theorem toStorage_ofJson_iff (j : Json) :
    (ofJson j).toStorage = .text j.render ↔ j.isContainer = true ∧ j.isSigned = true := by
  have hscalar {j : Json} (hj : j.isContainer = false) :
      ¬(j.isContainer = true ∧ j.isSigned = true) :=
    fun h => absurd h.1 (by rw [hj]; decide)
  cases j with
  | null | bool _ | float _ => exact iff_of_false (by rintro ⟨⟩) (hscalar rfl)
  | whole n =>
    refine iff_of_false ?_ (hscalar rfl)
    rw [ofJson]
    split <;> rintro ⟨⟩
  | text s => exact iff_of_false (fun heq => text_ne_render s (Value.text.inj heq)) (hscalar rfl)
  | object members => exact iff_of_true rfl ⟨rfl, rfl⟩
  | array items =>
    have hstored : (ofJson (.array items)).toStorage = .text (ofJson (.array items)).toJson.render :=
      rfl
    rw [hstored, toJson_ofJson, ← Json.render_rounded_eq_iff]
    exact ⟨fun heq => ⟨rfl, Value.text.inj heq⟩, fun heq => congrArg Value.text heq.2⟩

/-- A JSON value comes back from its native form with the nearest floats for the integers beyond the
signed range, except in objects, and as it was just if there are none. That decides as well whether
an array is stored as its JSON text; an object always is. -/
theorem toJson_ofJson_eq_iff (j : Json) :
    (ofJson j).toJson = j.rounded ∧ ((ofJson j).toJson = j ↔ j.isSigned = true) ∧
      ((ofJson j).toStorage = .text j.render ↔ j.isContainer = true ∧ j.isSigned = true) := by
  refine ⟨toJson_ofJson j, ?_, toStorage_ofJson_iff j⟩
  rw [toJson_ofJson]
  exact j.rounded_eq_iff

/-- The greatest count of an array comes back as a float and is stored as such; that of an object is
stored as it is. -/
theorem greatest_count_becomes_float :
    let greatest : Json := .whole ⟨2 ^ 64 - 1, by decide, by decide⟩
    (ofJson (.array [greatest])).toJson ≠ .array [greatest] ∧
      (Json.array [greatest]).render = "[18446744073709551615]" ∧
      (ofJson (.array [greatest])).toStorage = .text "[1.8446744073709552e+19]" ∧
      (ofJson (.object [("n", greatest)])).toStorage =
        .text "\x7b\"n\":18446744073709551615\x7d" := by
  intro greatest
  have harray : (Json.array [greatest]).render = "[18446744073709551615]" := by
    unfold greatest
    decide +kernel
  have hfloat : (ofJson (.array [greatest])).toJson.render = "[1.8446744073709552e+19]" := by
    unfold greatest
    decide +kernel
  have hobject : (Json.object [("n", greatest)]).render =
      "\x7b\"n\":18446744073709551615\x7d" := by
    unfold greatest
    decide +kernel
  refine ⟨fun heq => ?_, harray, congrArg Value.text hfloat, congrArg Value.text hobject⟩
  rw [heq, harray] at hfloat
  exact absurd hfloat (by decide)

end Value

end QueryChain
