import QueryChain.Number.Binary

/-!
JSON values. Integers are those of 64 bits, signed or unsigned; every other number is a finite
`Binary64`. The members of an object are kept in the order of their keys, one for each key.
-/

namespace QueryChain

open Number

structure Whole where
  val : Int
  low : -9223372036854775808 ≤ val := by decide
  high : val < 18446744073709551616 := by decide
  deriving DecidableEq

structure Finite where
  val : Binary64
  finite : val.isFinite = true := by decide
  deriving DecidableEq

inductive Json
  | null
  | bool (b : Bool)
  | whole (n : Whole)
  | float (x : Finite)
  | text (s : String)
  | array (items : List Json)
  | object (members : List (String × Json))
  deriving Inhabited

/-- Puts an entry into a list sorted by keys, in place of an entry with the same key. -/
def insertEntry {α : Type} (key : String) (value : α) : List (String × α) → List (String × α)
  | [] => [(key, value)]
  | (k, v) :: rest =>
    if key < k then (key, value) :: (k, v) :: rest
    else if key = k then (key, value) :: rest
    else (k, v) :: insertEntry key value rest

/-- The entries sorted by key; of those with one key the last remains. -/
def sortedEntries {α : Type} (entries : List (String × α)) : List (String × α) :=
  entries.foldl (fun acc e => insertEntry e.1 e.2 acc) []

namespace Json

def ofInt64 (n : Int64) : Json :=
  .whole ⟨n.toInt, n.le_toInt, Int.lt_trans n.toInt_lt (by decide)⟩

/-- An object with the given members; of members with one key the last remains. -/
def ofMembers (members : List (String × Json)) : Json :=
  .object (sortedEntries members)

def member? (key : String) : Json → Option Json
  | .object members => members.lookup key
  | _ => none

mutual

/-- Equality in which numbers of one kind are compared by value: `0.0` equals `-0.0`, while `1`
and `1.0` differ. -/
def same : Json → Json → Bool
  | .null, .null => true
  | .bool a, .bool b => a == b
  | .whole a, .whole b => a.val == b.val
  | .float a, .float b => a.val.key == b.val.key
  | .text a, .text b => a == b
  | .array as, .array bs => sameItems as bs
  | .object as, .object bs => sameMembers as bs
  | _, _ => false

def sameItems : List Json → List Json → Bool
  | [], [] => true
  | a :: as, b :: bs => same a b && sameItems as bs
  | _, _ => false

def sameMembers : List (String × Json) → List (String × Json) → Bool
  | [], [] => true
  | (k, a) :: as, (l, b) :: bs => k == l && same a b && sameMembers as bs
  | _, _ => false

end

def isContainer : Json → Bool
  | .array _ | .object _ => true
  | _ => false

end Json

end QueryChain
