import QueryChain.Filter.Condition
import QueryChain.Records.Coercion
import QueryChain.Sql.Clauses
import QueryChain.Text.Case
import QueryChain.Value.Order

/-!
Queries over records in memory. Predicates, sort keys and bounds are collected by chained calls and
looked at only when records are asked for.
-/

namespace QueryChain

open Text

/-- Whatever has named fields. -/
class Record (α : Type) where
  field? : α → String → Option Value

instance : Record Row where
  field? r name := r.get? name

/-- Values under distinct names. -/
structure Dictionary where
  entries : List (String × Value)

def Dictionary.ofList (entries : List (String × Value)) : Dictionary :=
  ⟨sortedEntries entries⟩

instance : Record Dictionary where
  field? d name := d.entries.lookup name

instance : Record Json where
  field? j name := (j.member? name).map Value.ofJson

def maxCount : Nat := 2 ^ 64 - 1

/-- The 64-bit count nearest to `n`. -/
def saturateCount (n : Nat) : UInt64 :=
  UInt64.ofNat (min maxCount n)

structure Window where
  offset : UInt64 := 0
  limit : Option UInt64 := none
  deriving DecidableEq

namespace Window

def slice (start stop : UInt64) (w : Window) : Window :=
  let length := saturateCount (stop.toNat - start.toNat)
  let room := match w.limit with
    | some limit => min length (saturateCount (limit.toNat - start.toNat))
    | none => length
  ⟨saturateCount (w.offset.toNat + start.toNat), some room⟩

def paginate (page size : UInt64) : Window :=
  ⟨saturateCount ((page.toNat - 1) * size.toNat), some size⟩

def cut {α : Type} (w : Window) (items : List α) : List α :=
  let rest := items.drop w.offset.toNat
  match w.limit with
  | some limit => rest.take limit.toNat
  | none => rest

end Window

structure Predicate where
  field : String
  lookup : Lookup
  operand : Value
  negated : Bool

namespace Predicate

/-- The operand as the lookup takes it: a list for `oneOf`, and none for `exact`. -/
def checkOperand (lookup : Lookup) (operand : Value) : Except OperandFault Value :=
  match lookup, operand.asList? with
  | .oneOf, some items => .ok (.list items)
  | .oneOf, none => .error (.notList operand.kind)
  | .exact, some _ => .error .listForExact
  | _, _ => .ok operand

def ofKey (negated : Bool) (key : String) (operand : Value) : Except Failure Predicate :=
  let k := Key.parse key
  match checkOperand k.lookup operand with
  | .ok operand => .ok ⟨k.field, k.lookup, operand, negated⟩
  | .error fault => .error (.invalidLookup k.field k.lookup fault)

def occursIn (needle : List Char) : List Char → Bool
  | [] => needle.isEmpty
  | c :: rest => decide (needle <+: c :: rest) || occursIn needle rest

theorem occursIn_iff {needle hay : List Char} : occursIn needle hay = true ↔ needle <:+: hay := by
  induction hay with
  | nil => simp [occursIn]
  | cons c rest ih => simp [occursIn, ih, List.infix_cons_iff]

def textMatches (lookup : Lookup) (hay needle : List Char) : Bool :=
  match lookup with
  | .startsWith | .iStartsWith => decide (needle <+: hay)
  | .endsWith | .iEndsWith => decide (needle <:+ hay)
  | _ => occursIn needle hay

/-- Whether the text of an item matches that of an operand; null matches nothing. -/
def patternMatches (lookup : Lookup) (item operand : Value) : Bool :=
  if item.isNull || operand.isNull then false
  else
    let fold (v : Value) : List Char :=
      let cs := v.toText.toList
      if lookup.ignoresCase then lowerChars cs else cs
    textMatches lookup (fold item) (fold operand)

/-- Whether an item is ordered to an operand as a comparison asks; null is not ordered. -/
def orderMatches (item operand : Value) (accept : Ordering → Bool) : Bool :=
  if item.isNull || operand.isNull then false
  else match item.order operand with
    | .ok o => accept o
    | .error _ => false

/-- Whether a coerced item meets a lookup with a coerced operand. A test for null looks at the
operand as it was given. -/
def evaluate (lookup : Lookup) (item operand given : Value) : Bool :=
  match lookup with
  | .exact => if operand.isNull then item.isNull else item.looselyEquals operand
  | .isNull => item.isNull == given.isTruthy
  | .oneOf =>
    match operand with
    | .list items => items.any item.looselyEquals
    | _ => false
  | .gt => orderMatches item operand (· == .gt)
  | .gte => orderMatches item operand (· != .lt)
  | .lt => orderMatches item operand (· == .lt)
  | .lte => orderMatches item operand (· != .gt)
  | l => patternMatches l item operand

def coercedOperand (r : Registry) (p : Predicate) : Value :=
  match p.lookup, p.operand with
  | .oneOf, .list items => .list (items.map (r.coerce p.field))
  | _, v => r.coerce p.field v

end Predicate

/-- A procedure that sorts by a comparison. It may fail where the comparison is not consistent. -/
structure Sorter where
  run : {β : Type} → (β → β → Ordering) → List β → Option (List β)

structure Selection (α : Type) where
  items : List α
  registry : Registry := {}
  predicates : List Predicate := []
  sortKeys : List SortKey := []
  window : Window := {}

namespace Selection

variable {α : Type}

def withFields (r : Registry) (s : Selection α) : Selection α :=
  { s with registry := r }

def addPredicates (negated : Bool) (pairs : List (String × Value)) (s : Selection α) :
    Except Failure (Selection α) :=
  (pairs.mapM fun (key, operand) => Predicate.ofKey negated key operand).map fun ps =>
    { s with predicates := s.predicates ++ ps }

def filter (pairs : List (String × Value)) (s : Selection α) : Except Failure (Selection α) :=
  s.addPredicates false pairs

def exclude (pairs : List (String × Value)) (s : Selection α) : Except Failure (Selection α) :=
  s.addPredicates true pairs

/-- Filters by the key of `field` for a needle, whatever the case. An empty field or needle
changes nothing. -/
def search (field needle : String) (s : Selection α) : Except Failure (Selection α) :=
  if field.isEmpty || needle.isEmpty then .ok s
  else s.filter [(field ++ "__" ++ Lookup.iContains.name, .text needle)]

def order (specs : List String) (s : Selection α) : Selection α :=
  { s with sortKeys := s.sortKeys ++ (specs.map SortKey.parse).filter (!·.field.isEmpty) }

def limit (n : UInt64) (s : Selection α) : Selection α :=
  { s with window := { s.window with limit := some n } }

def offset (n : UInt64) (s : Selection α) : Selection α :=
  { s with window := { s.window with offset := n } }

def slice (start stop : UInt64) (s : Selection α) : Selection α :=
  { s with window := s.window.slice start stop }

def paginate (page size : UInt64) (s : Selection α) : Selection α :=
  { s with window := .paginate page size }

variable [Record α]

/-- The coerced value of a field; a record without the field has null there. -/
def value (s : Selection α) (record : α) (field : String) : Value :=
  s.registry.coerce field ((Record.field? record field).getD .null)

def satisfies (s : Selection α) (record : α) (p : Predicate) : Bool :=
  Predicate.evaluate p.lookup (s.value record p.field) (p.coercedOperand s.registry) p.operand
    != p.negated

def hits (s : Selection α) : List α :=
  s.items.filter fun r => s.predicates.all (s.satisfies r)

/-- The order of two values of a sort key: null comes first, and values that have no order count
as equal. -/
def compareValues (a b : Value) : Ordering :=
  match a.isNull, b.isNull with
  | true, true => .eq
  | true, false => .lt
  | false, true => .gt
  | false, false =>
    match a.order b with
    | .ok o => o
    | .error _ => .eq

def compareKey (k : SortKey) (a b : Value) : Ordering :=
  match k.direction with
  | .ascending => compareValues a b
  | .descending => (compareValues a b).swap

def compareRecords (s : Selection α) (a b : α) : Ordering :=
  s.sortKeys.foldr
    (fun k rest => (compareKey k (s.value a k.field) (s.value b k.field)).then rest) .eq

/-- The records that meet the predicates, in their final order. The sort is one that never fails.
Where the keys give the records no consistent order, others may fail, or end in another order: see
`sortedBy`. -/
def sorted (s : Selection α) : List α :=
  s.hits.mergeSort fun a b => s.compareRecords a b != .gt

def list (s : Selection α) : List α :=
  s.window.cut s.sorted

def compareKeys : List SortKey → List Value → List Value → Ordering
  | k :: keys, a :: as, b :: bs => (compareKey k a b).then (compareKeys keys as bs)
  | _, _, _ => .eq

/-- The records that meet the predicates, each behind its values under the sort keys. -/
def keyed (s : Selection α) : List (List Value × α) :=
  s.hits.map fun r => (s.sortKeys.map fun k => s.value r k.field, r)

/-- The records that meet the predicates, in the order that a sorter gives them; none if it fails.
Without sort keys nothing is sorted. -/
def sortedBy (sorter : Sorter) (s : Selection α) : Option (List α) :=
  if s.sortKeys.isEmpty then some s.hits
  else
    (sorter.run (fun a b => compareKeys s.sortKeys a.1 b.1) s.keyed).map fun records =>
      records.map Prod.snd

def listBy (sorter : Sorter) (s : Selection α) : Option (List α) :=
  (s.sortedBy sorter).map s.window.cut

def count (s : Selection α) : Nat :=
  s.hits.length

def first? (s : Selection α) : Option α :=
  s.list.head?

def hasAny (s : Selection α) : Bool :=
  !s.list.isEmpty

def get (pairs : List (String × Value)) (s : Selection α) : Except Failure α :=
  match s.filter pairs with
  | .error e => .error e
  | .ok narrowed =>
    match narrowed.list with
    | [record] => .ok record
    | [] => .error (.notFound .records)
    | _ => .error (.multipleResults .records)

end Selection

end QueryChain
