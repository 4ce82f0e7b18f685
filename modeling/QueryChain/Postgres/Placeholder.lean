import QueryChain.Number.Layout

/-!
Numbered placeholders. The placeholders `%s` of a statement become `$1`, `$2` and so on, in their
order; quoted text is copied as it stands.
-/

namespace QueryChain.Postgres

open Number

/-- Numbers the placeholders of a text of which `n` are behind already. The first argument is the
quote that is open. -/
def numberChars : Option Char → Nat → List Char → List Char
  | _, _, [] => []
  | some mark, n, c :: rest => c :: numberChars (if c = mark then none else some mark) n rest
  | none, n, '%' :: 's' :: rest => '$' :: digitChars (n + 1) ++ numberChars none (n + 1) rest
  | none, n, '%' :: '%' :: rest => '%' :: numberChars none n rest
  | none, n, c :: rest =>
    c :: numberChars (if c = '\'' ∨ c = '"' then some c else none) n rest

/-- The statement with numbered placeholders; a doubled percent sign becomes a single one. -/
def numberPlaceholders (sql : String) : String :=
  String.ofList (numberChars none 0 sql.toList)

end QueryChain.Postgres
