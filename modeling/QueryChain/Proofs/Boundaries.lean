import QueryChain.Connection.Logged

/-!
Places in the UTF-8 bytes of a text. A place is a boundary when a character ends there or the text
begins, and a text is cut at boundaries only.
-/

namespace QueryChain

theorem byteLength_append (a b : List Char) :
    byteLength (a ++ b) = byteLength a + byteLength b := by
  induction a with
  | nil => simp [byteLength]
  | cons c a ih => simp [byteLength, ih, Nat.add_assoc]

theorem utf8ByteSize_ofList (cs : List Char) : (String.ofList cs).utf8ByteSize = byteLength cs := by
  induction cs with
  | nil => rfl
  | cons c cs ih =>
    rw [String.ofList_cons, String.utf8ByteSize_append, String.utf8ByteSize_singleton, ih,
      byteLength]

theorem byteLength_toList (s : String) : byteLength s.toList = s.utf8ByteSize := by
  rw [← utf8ByteSize_ofList, String.ofList_toList]

theorem byteLength_take_lt {cs : List Char} {i j : Nat} (h : i < j) (hi : i < cs.length) :
    byteLength (cs.take i) < byteLength (cs.take j) := by
  have hsplit := List.take_append_drop i (cs.take j)
  rw [List.take_take, Nat.min_eq_left (Nat.le_of_lt h)] at hsplit
  have hmore : ((cs.take j).drop i).length ≠ 0 := by
    rw [List.length_drop, List.length_take]
    omega
  rw [← hsplit, byteLength_append]
  obtain ⟨c, rest, hrest⟩ := List.exists_cons_of_length_pos (Nat.pos_of_ne_zero hmore)
  rw [hrest, byteLength]
  have := c.utf8Size_pos
  omega

theorem byteLength_take_le_iff {cs : List Char} {i j : Nat} (hj : j < cs.length) :
    byteLength (cs.take i) ≤ byteLength (cs.take j) ↔ i ≤ j := by
  constructor
  · intro hle
    refine Nat.le_of_not_lt fun hlt => ?_
    exact absurd hle (Nat.not_le.mpr (byteLength_take_lt hlt hj))
  · intro hle
    rcases Nat.lt_or_eq_of_le hle with hlt | rfl
    · exact Nat.le_of_lt (byteLength_take_lt hlt (by omega))
    · exact Nat.le_refl _

namespace Text

/-- Whether a place in the bytes of a text lies between two characters or at one of its ends. -/
def IsBoundary (s : String) (n : Nat) : Prop :=
  (⟨n⟩ : String.Pos.Raw).IsValid s

instance (s : String) (n : Nat) : Decidable (IsBoundary s n) :=
  inferInstanceAs (Decidable ((⟨n⟩ : String.Pos.Raw).IsValid s))

theorem isBoundary_iff {s : String} {n : Nat} :
    IsBoundary s n ↔ ∃ a b, s.toList = a ++ b ∧ byteLength a = n := by
  rw [IsBoundary, String.Pos.Raw.isValid_iff_exists_take_toList]
  constructor
  · rintro ⟨i, hi⟩
    refine ⟨s.toList.take i, s.toList.drop i, (List.take_append_drop i _).symm, ?_⟩
    rw [← utf8ByteSize_ofList]
    exact hi.symm
  · rintro ⟨a, b, hs, rfl⟩
    exact ⟨a.length, by rw [hs, List.take_left, utf8ByteSize_ofList]⟩

/-- The part of a text between two places in its bytes. There is none if the first place lies behind
the second, or if one of them lies within a character or behind the end. -/
def slice? (s : String) (start stop : Nat) : Option String :=
  if h : start ≤ stop ∧ IsBoundary s start ∧ IsBoundary s stop then
    some (String.extract (s := s) ⟨⟨start⟩, h.2.1⟩ ⟨⟨stop⟩, h.2.2⟩)
  else none

theorem slice?_between (a b c : List Char) :
    slice? (String.ofList (a ++ b ++ c)) (byteLength a) (byteLength (a ++ b)) =
      some (String.ofList b) := by
  have hstart : IsBoundary (String.ofList (a ++ b ++ c)) (byteLength a) :=
    isBoundary_iff.mpr ⟨a, b ++ c, by simp, rfl⟩
  have hstop : IsBoundary (String.ofList (a ++ b ++ c)) (byteLength (a ++ b)) :=
    isBoundary_iff.mpr ⟨a ++ b, c, by simp, rfl⟩
  have hle : byteLength a ≤ byteLength (a ++ b) := by
    rw [byteLength_append]
    exact Nat.le_add_right _ _
  have hsize (cs : List Char) : byteLength cs = (String.ofList cs).toByteArray.size := by
    rw [String.size_toByteArray, utf8ByteSize_ofList]
  have hextract (x y z : ByteArray) : (x ++ y ++ z).extract x.size (x ++ y).size = y := by
    have hbehind : (x ++ (y ++ z)).extract (x.size + 0) (x.size + y.size) =
        (y ++ z).extract 0 y.size :=
      ByteArray.extract_append_size_add
    rw [ByteArray.append_assoc, ByteArray.size_append]
    exact hbehind.trans (ByteArray.extract_append_eq_left rfl)
  rw [slice?, dif_pos ⟨hle, hstart, hstop⟩, Option.some.injEq, ← String.toByteArray_inj,
    String.toByteArray_extract]
  simp only [hsize, String.ofList_append, String.toByteArray_append, hextract]

end Text

end QueryChain
