import QueryChain.Filter.Pattern
import QueryChain.Sql.Dialect
import QueryChain.Sql.Identifier
import QueryChain.Value.Shown

/-!
Conditions on rows. A lookup on a field becomes a condition without regard to any dialect; a
dialect then writes the condition as SQL, with a placeholder for each operand.
-/

namespace QueryChain

inductive Comparison
  | eq
  | gt
  | gte
  | lt
  | lte
  deriving DecidableEq

def Comparison.operator : Comparison → String
  | .eq => "="
  | .gt => ">"
  | .gte => ">="
  | .lt => "<"
  | .lte => "<="

inductive Condition
  | never
  | isNull (field : Identifier)
  | isNotNull (field : Identifier)
  | compare (field : Identifier) (comparison : Comparison) (operand : Value)
  | oneOf (field : Identifier) (operands : List Value)
  | like (field : Identifier) (ignoreCase : Bool) (pattern : String)
  | not (condition : Condition)
  | given (fragment : Fragment)

namespace Condition

/-- The condition that a lookup on a field puts on it. Equality with null is a test for null, and
null matches no pattern. -/
def ofOperand (field : Identifier) (lookup : Lookup) (operand : Value) :
    Except OperandFault Condition :=
  let pattern (l : Lookup) : Condition :=
    if operand.isNull then .never
    else .like field l.ignoresCase ((l.pattern? operand.toText).getD "")
  match lookup with
  | .exact =>
    if operand.isNull then .ok (.isNull field)
    else if operand.asList?.isSome then .error .listForExact
    else .ok (.compare field .eq operand)
  | .oneOf =>
    match operand.asList? with
    | none => .error (.notList operand.kind)
    | some [] => .ok .never
    | some items => .ok (.oneOf field items)
  | .isNull => .ok (if operand.isTruthy then .isNull field else .isNotNull field)
  | .gt => .ok (.compare field .gt operand)
  | .gte => .ok (.compare field .gte operand)
  | .lt => .ok (.compare field .lt operand)
  | .lte => .ok (.compare field .lte operand)
  | l => .ok (pattern l)

def ofLookup (field : String) (lookup : Lookup) (operand : Value) : Except Failure Condition :=
  match Identifier.ofField field with
  | .error e => .error e
  | .ok i => (ofOperand i lookup operand).mapError (.invalidLookup field lookup)

def ofKey (key : String) (operand : Value) : Except Failure Condition :=
  let k := Key.parse key
  ofLookup k.field k.lookup operand

/-- The conditions of several keys, in order; the first that fails decides. -/
def ofPairs (pairs : List (String × Value)) : Except Failure (List Condition) :=
  pairs.mapM fun (key, operand) => ofKey key operand

/-- The condition that a field contains a needle, whatever the case. -/
def search (field needle : String) : Except Failure Condition :=
  ofLookup field .iContains (.text needle)

def write (d : Dialect) : Condition → Fragment
  | .never => .ofText "1 = 0"
  | .isNull field => .ofText (field.sql ++ " IS NULL")
  | .isNotNull field => .ofText (field.sql ++ " IS NOT NULL")
  | .compare field comparison operand =>
    .ofText (field.sql ++ " " ++ comparison.operator ++ " ") ++ d.placeholder.bind operand
  | .oneOf field operands =>
    .ofText (field.sql ++ " IN (") ++ d.placeholder.bindAll operands ++ .ofText ")"
  | .like field ignoreCase pattern =>
    ⟨if ignoreCase then d.ilike field.sql else d.like field.sql, [.text pattern]⟩
  | .not condition => .ofText "NOT (" ++ condition.write d ++ .ofText ")"
  | .given fragment => fragment

end Condition

end QueryChain
