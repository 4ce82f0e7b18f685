import QueryChain.Failure

/-!
Comparison of values. Integers and floats compare by value, an integer being rounded to a float
first; every other pair must be of one sort. JSON scalars compare as native values with whatever
is not JSON itself.
-/

namespace QueryChain

namespace Value

def compareNative? : Value → Value → Option Ordering
  | .int a, .int b => some (compare a.toInt b.toInt)
  | .int a, .float b => (Number.Binary64.ofInt a.toInt).compare? b
  | .float a, .int b => a.compare? (.ofInt b.toInt)
  | .float a, .float b => a.compare? b
  | .bool a, .bool b => some (compare a.toNat b.toNat)
  | .text a, .text b => some (compareOfLessAndEq a b)
  | .blob a, .blob b => some (compareOfLessAndEq a b)
  | .timestamp a, .timestamp b => some (a.order b)
  | _, _ => none

def compareNative (a b : Value) : Except Failure Ordering :=
  match compareNative? a b with
  | some o => .ok o
  | none => .error (.typeMismatch a.kind b.kind)

/-- The order of two values, or the mismatch of their sorts. -/
def order (a b : Value) : Except Failure Ordering :=
  match a, b with
  | .json _, .json _ => .error (.typeMismatch .json .json)
  | .json i, b =>
    match ofJson i with
    | .json _ => .error (.typeMismatch .json b.kind)
    | a => compareNative a b
  | a, .json j =>
    match ofJson j with
    | .json _ => .error (.typeMismatch a.kind .json)
    | b => compareNative a b
  | a, b => compareNative a b

def isEqual (a b : Value) : Bool :=
  match order a b with
  | .ok .eq => true
  | _ => false

mutual

/-- Equality as filters see it: nulls are equal to each other alone, JSON values and lists are
compared part by part, and other values by their order. -/
def looselyEquals (a b : Value) : Bool :=
  if a.isNull || b.isNull then a.isNull && b.isNull
  else match a, b with
    | .json i, .json j => i.same j
    | .list as, .list bs => looselyEqualItems as bs
    | a, b => isEqual a b

def looselyEqualItems : List Value → List Value → Bool
  | [], [] => true
  | a :: as, b :: bs => looselyEquals a b && looselyEqualItems as bs
  | _, _ => false

end

end Value

end QueryChain
