import QueryChain.Number.Layout
import QueryChain.Postgres.Wire

/-!
Internet addresses as text. Of the zero segments of a long address the first longest run of at
least two is left out.
-/

namespace QueryChain.Postgres

open Number

def joinChars (sep : List Char) (parts : List (List Char)) : List Char :=
  List.intercalate sep parts

def shortAddress (bytes : Bytes) : List Char :=
  joinChars ['.'] (bytes.map fun b => digitChars b.toNat)

def segments : Bytes → List Nat
  | a :: b :: rest => (256 * a.toNat + b.toNat) :: segments rest
  | _ => []

def segmentChars (ss : List Nat) : List Char :=
  joinChars [':'] (ss.map (Nat.toDigits 16))

def zeroRun (ss : List Nat) (index : Nat) : Nat :=
  ((ss.drop index).takeWhile (· == 0)).length

def longestZeroRun (ss : List Nat) : Nat × Nat :=
  (List.range ss.length).foldl (fun (start, length) i =>
    if length < zeroRun ss i then (i, zeroRun ss i) else (start, length)) (0, 0)

/-- The text of an address of sixteen bytes. One that embeds a short address shows it as such. -/
def longAddress (bytes : Bytes) : List Char :=
  let ss := segments bytes
  if ss.take 6 = [0, 0, 0, 0, 0, 0xFFFF] then
    "::ffff:".toList ++ shortAddress (bytes.drop 12)
  else
    let (start, length) := longestZeroRun ss
    if 1 < length then
      segmentChars (ss.take start) ++ ':' :: ':' :: segmentChars (ss.drop (start + length))
    else segmentChars ss

/-- Reads the family, the mask, a flag, the length and the address. -/
def addressText? (bytes : Bytes) : Option String :=
  match bytes with
  | family :: mask :: _ :: length :: address =>
    if address.length ≠ length.toNat then none
    else if family = 2 ∧ mask ≤ 32 ∧ length = 4 then some (String.ofList (shortAddress address))
    else if family = 3 ∧ mask ≤ 128 ∧ length = 16 then some (String.ofList (longAddress address))
    else none
  | _ => none

end QueryChain.Postgres
