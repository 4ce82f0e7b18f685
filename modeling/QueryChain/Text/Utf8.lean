import QueryChain.Number.Power

/-!
Reading bytes as UTF-8. A byte sequence that is not a character is read as nothing; the lossy
reading puts one replacement character for each longest start of a character that breaks off.
-/

namespace QueryChain.Text

/-- What the first byte of a character of several bytes calls for: how many bytes follow, and the
range of the first of them. -/
def follow? (b : UInt8) : Option (Nat × UInt8 × UInt8) :=
  if 0xC2 ≤ b ∧ b ≤ 0xDF then some (1, 0x80, 0xBF)
  else if b = 0xE0 then some (2, 0xA0, 0xBF)
  else if b = 0xED then some (2, 0x80, 0x9F)
  else if 0xE1 ≤ b ∧ b ≤ 0xEF then some (2, 0x80, 0xBF)
  else if b = 0xF0 then some (3, 0x90, 0xBF)
  else if 0xF1 ≤ b ∧ b ≤ 0xF3 then some (3, 0x80, 0xBF)
  else if b = 0xF4 then some (3, 0x80, 0x8F)
  else none

def continues (b : UInt8) : Bool := 0x80 ≤ b && b ≤ 0xBF

/-- The bits of a first byte that belong to the character when `count` bytes follow. -/
def leadBits (count : Nat) (b : UInt8) : Nat :=
  b.toNat % 2 ^ (6 - count)

/-- The character at the front of `b :: rest`, if there is one, and how many bytes of `rest`
belong to it or to its broken start. -/
def firstChar (b : UInt8) (rest : List UInt8) : Option Char × Nat :=
  if b < 0x80 then (some (Char.ofNat b.toNat), 0)
  else match follow? b with
    | none => (none, 0)
    | some (count, low, high) =>
      match rest with
      | second :: more =>
        if low ≤ second ∧ second ≤ high then
          let others := (more.take (count - 1)).takeWhile continues
          if others.length = count - 1 then
            let code := (second :: others).foldl (fun n c => n * 64 + c.toNat % 64)
              (leadBits count b)
            (some (Char.ofNat code), count)
          else (none, 1 + others.length)
        else (none, 0)
      | [] => (none, 0)

/-- The characters of a byte sequence in order, with `none` for whatever is not a character. -/
def readUtf8 : List UInt8 → List (Option Char)
  | [] => []
  | b :: rest => (firstChar b rest).1 :: readUtf8 (rest.drop (firstChar b rest).2)
termination_by bytes => bytes.length
decreasing_by simp only [List.length_drop, List.length_cons]; omega

def ofUtf8? (bytes : List UInt8) : Option String :=
  ((readUtf8 bytes).mapM id).map String.ofList

/-- The text of a byte sequence, with a replacement character for each ill-formed part. -/
def ofUtf8Lossy (bytes : List UInt8) : String :=
  String.ofList ((readUtf8 bytes).map (·.getD '\uFFFD'))

def utf8Bytes (s : String) : List UInt8 :=
  s.toList.flatMap String.utf8EncodeChar

end QueryChain.Text
