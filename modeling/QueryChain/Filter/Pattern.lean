import QueryChain.Filter.Lookup

/-!
Patterns of the LIKE operator: the wildcard `%` around a needle whose own wildcards are escaped by
a backslash.
-/

namespace QueryChain

namespace Pattern

def isSpecial (c : Char) : Bool :=
  c == '\\' || c == '%' || c == '_'

def escapeChars (cs : List Char) : List Char :=
  cs.flatMap fun c => if isSpecial c then ['\\', c] else [c]

/-- The text in which every character that patterns treat specially stands behind a backslash. -/
def escape (s : String) : String :=
  String.ofList (escapeChars s.toList)

end Pattern

def Lookup.pattern? (l : Lookup) (needle : String) : Option String :=
  l.wildcards?.map fun (before, after) =>
    (if before then "%" else "") ++ Pattern.escape needle ++ (if after then "%" else "")

end QueryChain
