import QueryChain.Value.Basic

/-!
SQL text together with the values of its placeholders, in the order of the placeholders.
-/

namespace QueryChain

structure Fragment where
  sql : String
  params : List Value
  deriving Inhabited

namespace Fragment

instance : Append Fragment where
  append a b := ⟨a.sql ++ b.sql, a.params ++ b.params⟩

@[simp] theorem sql_append (a b : Fragment) : (a ++ b).sql = a.sql ++ b.sql := rfl

@[simp] theorem params_append (a b : Fragment) : (a ++ b).params = a.params ++ b.params := rfl

theorem append_assoc (a b c : Fragment) : a ++ b ++ c = a ++ (b ++ c) := by
  change Fragment.mk _ _ = Fragment.mk _ _
  simp [String.append_assoc]

def ofText (sql : String) : Fragment :=
  ⟨sql, []⟩

def empty : Fragment :=
  ofText ""

/-- The fragments in order, the first behind `lead` and each other one behind `sep`. -/
def series (lead sep : String) : List Fragment → Fragment
  | [] => empty
  | f :: rest => ofText lead ++ f ++ rest.foldr (fun g acc => ofText sep ++ g ++ acc) empty

end Fragment

inductive Placeholder
  | question
  | percent
  deriving DecidableEq

namespace Placeholder

def token : Placeholder → String
  | .question => "?"
  | .percent => "%s"

def bind (p : Placeholder) (v : Value) : Fragment :=
  ⟨p.token, [v]⟩

def bindAll (p : Placeholder) (vs : List Value) : Fragment :=
  .series "" ", " (vs.map p.bind)

/-- Where a reader of placeholders stands: behind a plain character, behind a percent sign that
is not yet paired, or within quotes. -/
inductive Place
  | plain
  | percentSign
  | quoted (mark : Char)
  deriving DecidableEq

def Place.behind (c : Char) : Place :=
  if c = '\'' ∨ c = '"' then .quoted c
  else if c = '%' then .percentSign
  else .plain

/-- The place after one more character. Two percent signs make a pair. -/
def Place.next : Place → Char → Place
  | .quoted mark, c => if c = mark then .plain else .quoted mark
  | .percentSign, c => if c = '%' then .plain else .behind c
  | .plain, c => .behind c

def endsAt (p : Placeholder) : Place → Char → Bool
  | .quoted _, _ => false
  | .percentSign, c => match p with
    | .question => c == '?'
    | .percent => c == 's'
  | .plain, c => match p with
    | .question => c == '?'
    | .percent => false

/-- The number of placeholders in a text that is read from the given place on. -/
def countFrom (p : Placeholder) : Place → List Char → Nat
  | _, [] => 0
  | place, c :: rest => (if p.endsAt place c then 1 else 0) + p.countFrom (place.next c) rest

/-- The number of placeholders outside quotes; `%%` is a percent sign and no placeholder. -/
def count (p : Placeholder) (sql : String) : Nat :=
  p.countFrom .plain sql.toList

end Placeholder

end QueryChain
