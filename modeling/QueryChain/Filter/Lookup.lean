/-!
The comparison that a filter key selects, and the grammar of keys: a field, `__` and a suffix.
-/

namespace QueryChain

inductive Lookup
  | exact
  | oneOf
  | isNull
  | startsWith
  | endsWith
  | contains
  | iContains
  | iStartsWith
  | iEndsWith
  | gt
  | gte
  | lt
  | lte
  deriving DecidableEq

namespace Lookup

def all : List Lookup :=
  [.exact, .oneOf, .isNull, .startsWith, .endsWith, .contains, .iContains, .iStartsWith,
    .iEndsWith, .gt, .gte, .lt, .lte]

def name : Lookup → String
  | .exact => "exact"
  | .oneOf => "in"
  | .isNull => "isnull"
  | .startsWith => "startswith"
  | .endsWith => "endswith"
  | .contains => "contains"
  | .iContains => "icontains"
  | .iStartsWith => "istartswith"
  | .iEndsWith => "iendswith"
  | .gt => "gt"
  | .gte => "gte"
  | .lt => "lt"
  | .lte => "lte"

def ofName? (s : String) : Option Lookup :=
  all.find? (·.name == s)

/-- Where the wildcards of a pattern lookup stand: before the needle, after it. -/
def wildcards? : Lookup → Option (Bool × Bool)
  | .startsWith | .iStartsWith => some (false, true)
  | .endsWith | .iEndsWith => some (true, false)
  | .contains | .iContains => some (true, true)
  | _ => none

def isPattern (l : Lookup) : Bool :=
  l.wildcards?.isSome

def ignoresCase : Lookup → Bool
  | .iContains | .iStartsWith | .iEndsWith => true
  | _ => false

def operator? : Lookup → Option String
  | .gt => some ">"
  | .gte => some ">="
  | .lt => some "<"
  | .lte => some "<="
  | _ => none

end Lookup

/-- A filter key taken apart. A suffix that names no lookup is kept in `unknown`, and the lookup
is then `exact`. -/
structure Key where
  field : String
  lookup : Lookup
  unknown : Option String
  deriving DecidableEq

namespace Key

/-- The pieces of a text between non-overlapping pairs of underscores, taken from the left. -/
def segments : List Char → List Char → List (List Char)
  | piece, [] => [piece.reverse]
  | piece, '_' :: '_' :: rest => piece.reverse :: segments [] rest
  | piece, c :: rest => segments (c :: piece) rest

/-- The lookup that a suffix selects: `exact` where it names none. -/
def ofSuffix (field suffix : String) : Key :=
  match Lookup.ofName? suffix with
  | some l => ⟨field, l, none⟩
  | none => ⟨field, .exact, some suffix⟩

/-- Splits a key; only its first two segments count. -/
def parse (s : String) : Key :=
  match segments [] s.toList with
  | field :: suffix :: _ => ofSuffix (String.ofList field) (String.ofList suffix)
  | [field] => ⟨String.ofList field, .exact, none⟩
  | [] => ⟨"", .exact, none⟩

end Key

end QueryChain
