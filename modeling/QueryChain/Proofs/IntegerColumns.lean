import Mathlib.Tactic.Ring
import QueryChain.Postgres.Cell
import QueryChain.Postgres.Parameter
import QueryChain.Proofs.Comparison
import QueryChain.Proofs.Outcome

/-!
Integers as parameters. A word of a column type is read back as the integer that was written, and
an integer is sent exactly if it lies in the range of the column. What other values are sent as is
not looked at: booleans, texts, blobs and moments go to an integer column in a form of their own.
-/

namespace QueryChain

namespace Postgres

/-! ### Words -/

theorem length_ofNat (width n : Nat) : (ofNat width n).length = width := by
  induction width with
  | zero => rfl
  | succ width ih => rw [ofNat, List.length_cons, ih]

theorem foldl_ofNat (width n before : Nat) :
    (ofNat width n).foldl (fun m b => 256 * m + b.toNat) before =
      256 ^ width * before + n % 256 ^ width := by
  induction width generalizing before with
  | zero => simp [ofNat, Nat.mod_one]
  | succ width ih =>
    have hbyte : (UInt8.ofNat (n / 256 ^ width)).toNat = n / 256 ^ width % 256 := by simp
    have hsplit := Nat.mod_mul (a := 256 ^ width) (b := 256) (x := n)
    rw [ofNat, List.foldl_cons, ih, hbyte, Nat.pow_succ, hsplit]
    ring

theorem toNat_ofNat (width n : Nat) : toNat (ofNat width n) = n % 256 ^ width := by
  rw [toNat, foldl_ofNat, Nat.mul_zero, Nat.zero_add]

theorem exactly?_ofInt (width : Nat) (n : Int) :
    exactly? width (ofInt width n) = some (ofInt width n) :=
  if_pos (length_ofNat width _)

theorem toNat_ofInt (width : Nat) (n : Int) : (toNat (ofInt width n) : Int) = n % 256 ^ width := by
  have hword : ((256 ^ width : Nat) : Int) = 256 ^ width := Int.natCast_pow 256 width
  have hpos : 0 < 256 ^ width := Nat.pow_pos (by decide)
  have hlt : n % 256 ^ width < 256 ^ width := Int.emod_lt_of_pos n (by omega)
  have hnonneg : 0 ≤ n % 256 ^ width := Int.emod_nonneg n (by omega)
  rw [ofInt, toNat_ofNat, Nat.mod_eq_of_lt (by omega), Int.toNat_of_nonneg hnonneg]

/-- A signed word holds the integers of one half of its range on either side of zero. -/
theorem toInt_ofInt {width : Nat} {n : Int} (hlow : -(256 ^ width) ≤ 2 * n)
    (hhigh : 2 * n < 256 ^ width) : toInt (ofInt width n) = n := by
  have hword : ((256 ^ width : Nat) : Int) = 256 ^ width := Int.natCast_pow 256 width
  have hbytes := toNat_ofInt width n
  have hlength : (ofInt width n).length = width := length_ofNat width _
  rw [toInt, hlength]
  rcases lt_or_ge n 0 with hneg | hnonneg
  · have hshifted : n % 256 ^ width = n + 256 ^ width := by
      rw [← Int.add_emod_right, Int.emod_eq_of_lt (by omega) (by omega)]
    rw [if_neg (by omega)]
    omega
  · have hsame : n % 256 ^ width = n := Int.emod_eq_of_lt hnonneg (by omega)
    rw [if_pos (by omega)]
    omega

/-! ### Columns -/

inductive IntegerType
  | int2
  | int4
  | int8
  | oid

namespace IntegerType

def type : IntegerType → PgType
  | .int2 => .int2
  | .int4 => .int4
  | .int8 => .int8
  | .oid => .oid

def width : IntegerType → Nat
  | .int2 => 2
  | .int4 | .oid => 4
  | .int8 => 8

def low : IntegerType → Int
  | .int2 => -(2 ^ 15)
  | .int4 => -(2 ^ 31)
  | .int8 => -(2 ^ 63)
  | .oid => 0

def high : IntegerType → Int
  | .int2 => 2 ^ 15 - 1
  | .int4 => 2 ^ 31 - 1
  | .int8 => 2 ^ 63 - 1
  | .oid => 2 ^ 32 - 1

def Holds (t : IntegerType) (n : Int) : Prop :=
  t.low ≤ n ∧ n ≤ t.high

variable {t : IntegerType}

theorem encodeInt_eq (t : IntegerType) (n : Int64) :
    encodeInt t.type n = encodeWithin t.width t.low t.high n.toInt := by
  cases t with
  | int8 =>
    have hlow := n.le_toInt
    have hhigh := n.toInt_lt
    rw [encodeWithin, if_neg, if_neg]
    · rfl
    · simp only [high]
      omega
    · simp only [low]
      omega
  | int2 | int4 | oid => rfl

theorem encodeInt_ok {n : Int64} {bytes : Bytes} :
    encodeInt t.type n = .ok bytes ↔ t.Holds n.toInt ∧ bytes = ofInt t.width n.toInt := by
  rw [encodeInt_eq, encodeWithin, Holds]
  split
  · simp
    omega
  · split
    · simp
      omega
    · simp [eq_comm]
      omega

/-- A word of a column is read as the integer that it was written for. -/
theorem decode?_ofInt {n : Int64} (h : t.Holds n.toInt) :
    decode? t.type (ofInt t.width n.toInt) = some (.int n) := by
  obtain ⟨hlow, hhigh⟩ := h
  cases t with
  | int2 | int4 | int8 =>
    simp only [low, high] at hlow hhigh
    simp only [type, width, decode?, exactly?_ofInt, Option.map_some]
    rw [toInt_ofInt (by omega) (by omega), Int64.ofInt_toInt]
  | oid =>
    simp only [low, high] at hlow hhigh
    simp only [type, width, decode?, exactly?_ofInt, Option.map_some]
    have hword : (toNat (ofInt 4 n.toInt) : Int) = n.toInt := by
      rw [toNat_ofInt, Int.emod_eq_of_lt hlow (by omega)]
    rw [← Int64.ofInt_eq_ofNat, hword, Int64.ofInt_toInt]

theorem decode?_encodeInt {n : Int64} {bytes : Bytes} (h : encodeInt t.type n = .ok bytes) :
    decode? t.type bytes = some (.int n) := by
  obtain ⟨hholds, rfl⟩ := encodeInt_ok.mp h
  exact decode?_ofInt hholds

end IntegerType

/-! ### Values -/

/-- Whether values of a sort go to an integer column without regard to its type. -/
def isUnexamined : ValueKind → Bool
  | .bool | .text | .blob | .timestamp => true
  | .null | .int | .float | .json | .list => false

namespace IntegerType

variable {t : IntegerType}

theorem encode_eq (t : IntegerType) (v : Value) :
    encode t.type v = encodeNative t.type v.native := by
  cases v <;> cases t <;> rfl

/-- Of the values that are examined, the integers alone have bytes. -/
theorem encodeNative_examined {v : Value} {bytes : Bytes} (hv : isUnexamined v.kind = false)
    (h : encodeNative t.type v = .ok (some bytes)) :
    ∃ n, v = .int n ∧ decode? t.type bytes = some (.int n) := by
  cases v with
  | int n =>
    obtain ⟨word, hword, hsome⟩ := Except.map_eq_ok.mp h
    obtain rfl := Option.some.inj hsome
    exact ⟨n, rfl, decode?_encodeInt hword⟩
  | null => cases h
  | float x | json j | list items => cases t <;> cases h
  | bool b | text s | blob bytes | timestamp m => cases hv

/-- The other values always have bytes. -/
theorem encodeNative_unexamined (t : IntegerType) {v : Value} (hv : isUnexamined v.kind = true) :
    ∃ bytes, encodeNative t.type v = .ok (some bytes) := by
  cases v with
  | bool b => exact ⟨[if b then 1 else 0], rfl⟩
  | text s => cases t <;> exact ⟨Text.utf8Bytes s, rfl⟩
  | blob bytes => exact ⟨bytes, rfl⟩
  | timestamp m => cases t <;> exact ⟨ofInt 8 (microseconds m), rfl⟩
  | null | int _ | float _ | json _ | list _ => cases hv

/-- The one byte of a boolean is no word of an integer column. -/
theorem decode?_bool (t : IntegerType) (b : Bool) {bytes : Bytes}
    (h : encode t.type (.bool b) = .ok (some bytes)) : decode? t.type bytes = none := by
  rw [encode_eq] at h
  obtain rfl := Option.some.inj (Except.ok.inj h)
  cases t <;> rfl

/-- What is an integer goes as one, booleans apart. -/
theorem native_eq_int_iff {v : Value} {n : Int64} :
    v.native = .int n ↔ v.asInt? = some n ∧ ∀ b, v ≠ .bool b := by
  cases v with
  | json j =>
    cases j with
    | whole m =>
      simp only [Value.native, Value.ofJson, Value.asInt?]
      split <;> simp
    | null | bool _ | float _ | text _ | array _ | object _ =>
      simp [Value.native, Value.ofJson, Value.asInt?]
  | null | bool _ | int _ | float _ | text _ | blob _ | timestamp _ | list _ =>
    simp [Value.native, Value.asInt?]

/-- An integer is sent to the columns whose range it lies in. -/
theorem exists_encode_int_iff (t : IntegerType) (n : Int64) :
    (∃ bytes, encode t.type (.int n) = .ok (some bytes)) ↔ t.Holds n.toInt := by
  rw [encode_eq]
  constructor
  · rintro ⟨bytes, hbytes⟩
    obtain ⟨word, hword, -⟩ := Except.map_eq_ok.mp hbytes
    exact (encodeInt_ok.mp hword).1
  · intro hholds
    exact ⟨_, Except.map_eq_ok.mpr ⟨_, encodeInt_ok.mpr ⟨hholds, rfl⟩, rfl⟩⟩

/-- Whatever an integer column is sent is read there as the integer that the value is, if and only
if values of its sort are examined; and an integer is sent if and only if the column holds it. -/
theorem sent_as_meant_iff (t : IntegerType) (v : Value) :
    ((∀ bytes, encode t.type v = .ok (some bytes) →
        ∃ n, decode? t.type bytes = some (.int n) ∧ v.asInt? = some n) ↔
      isUnexamined v.native.kind = false) ∧
    ∀ i : Int64, (∃ bytes, encode t.type (.int i) = .ok (some bytes)) ↔ t.Holds i.toInt := by
  refine ⟨⟨fun hmeant => ?_, fun hv bytes hbytes => ?_⟩, exists_encode_int_iff t⟩
  · by_contra hv
    obtain ⟨bytes, hbytes⟩ := encodeNative_unexamined t (Bool.not_eq_false _ ▸ hv)
    rw [← encode_eq] at hbytes
    obtain ⟨n, hread, hint⟩ := hmeant bytes hbytes
    have hne : ∀ b, v ≠ .bool b := by
      rintro b rfl
      rw [decode?_bool t b hbytes] at hread
      cases hread
    rw [native_eq_int_iff.mpr ⟨hint, hne⟩] at hv
    exact hv rfl
  · rw [encode_eq] at hbytes
    obtain ⟨n, hsent, hread⟩ := encodeNative_examined hv hbytes
    exact ⟨n, hread, (native_eq_int_iff.mp hsent).1⟩

/-- A text of four characters is taken for a number, and a boolean is not taken for one. -/
theorem text_taken_for_integer :
    encode .int4 (.text "abcd") = .ok (some [97, 98, 99, 100]) ∧
      decode? .int4 [97, 98, 99, 100] = some (.int 1633837924) ∧
      (Value.text "abcd").asInt? = none ∧
      encode .int4 (.bool true) = .ok (some [1]) ∧ decode? .int4 [1] = none ∧
      (Value.bool true).asInt? = some 1 :=
  ⟨rfl, rfl, rfl, rfl, rfl, rfl⟩

end IntegerType

end Postgres

end QueryChain
