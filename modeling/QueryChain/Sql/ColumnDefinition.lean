import QueryChain.Sql.Identifier
import QueryChain.Text.Blank

/-!
Column definitions of CREATE TABLE. A definition may hold known keywords, numbers, quoted literals,
parentheses and commas; other words stand only as the table and the columns of a REFERENCES clause.
-/

namespace QueryChain

open Text

/-- The words that a definition may use anywhere. -/
def definitionWords : List String :=
  ["ACTION", "ASC", "AUTOINCREMENT", "BIGINT", "BIGSERIAL", "BINARY", "BLOB", "BOOLEAN",
    "BYTEA", "CASCADE", "CHAR", "CHECK", "COLLATE", "CURRENT_DATE", "CURRENT_TIME",
    "CURRENT_TIMESTAMP", "DATETIME", "DEFAULT", "DELETE", "DESC", "DOUBLE", "FALSE", "FLOAT",
    "FOREIGN", "INTEGER", "JSON", "JSONB", "KEY", "NO", "NOCASE", "NOT", "NULL", "NUMERIC", "ON",
    "PRECISION", "PRIMARY", "REAL", "REFERENCES", "RESTRICT", "RTRIM", "SERIAL", "SET",
    "SMALLINT", "TEXT", "TIMESTAMP", "TRUE", "UNIQUE", "UPDATE", "VARCHAR"]

namespace ColumnDefinition

inductive Token
  | opening
  | closing
  | comma
  | number
  | literal
  | word (chars : List Char)
  | unclosed (chars : List Char)
  | foreign (c : Char)
  deriving DecidableEq

/-- What the lexer is in the middle of. Characters of a word or a literal are kept in reverse. -/
inductive Pending
  | nothing
  | number
  | word (chars : List Char)
  | literal (chars : List Char)
  deriving DecidableEq

def Pending.finish : Pending → List Token
  | .nothing => []
  | .number => [.number]
  | .word chars => [.word chars.reverse]
  | .literal chars => [.unclosed chars.reverse]

def start (c : Char) : List Token × Pending :=
  if isBlank c then ([], .nothing)
  else if c = '(' then ([.opening], .nothing)
  else if c = ')' then ([.closing], .nothing)
  else if c = ',' then ([.comma], .nothing)
  else if c = '\'' then ([], .literal [c])
  else if c.isDigit then ([], .number)
  else if isNameChar c then ([], .word [c])
  else ([.foreign c], .nothing)

/-- The tokens that one more character completes, and what is pending behind it. -/
def advance (p : Pending) (c : Char) : List Token × Pending :=
  match p with
  | .literal chars =>
    if c = '\'' then ([.literal], .nothing) else ([], .literal (c :: chars))
  | .word chars =>
    if isNameChar c then ([], .word (c :: chars))
    else (p.finish ++ (start c).1, (start c).2)
  | .number => if c.isDigit then ([], .number) else (p.finish ++ (start c).1, (start c).2)
  | .nothing => start c

def lexFrom (p : Pending) : List Char → List Token
  | [] => p.finish
  | c :: rest => (advance p c).1 ++ lexFrom (advance p c).2 rest

def lex (s : String) : List Token :=
  lexFrom .nothing s.toList

/-- Where a definition stands with respect to a REFERENCES clause: outside, before the table,
behind it, or within the list of its columns. -/
inductive Place
  | outside
  | table
  | behindTable
  | columns
  deriving DecidableEq

/-- The place behind a token, or the text that makes the token unsafe. -/
def Place.next (p : Place) : Token → Except (List Char) Place
  | .opening => .ok (if p = .behindTable then .columns else .outside)
  | .closing => .ok (if p = .columns then .outside else p)
  | .comma | .number | .literal => .ok p
  | .word chars =>
    match p with
    | .table => .ok .behindTable
    | .columns => .ok .columns
    | _ =>
      let upper := String.ofList (chars.map Char.toUpper)
      if upper = "REFERENCES" then .ok .table
      else if upper ∈ definitionWords then .ok .outside
      else .error chars
  | .unclosed chars => .error chars
  | .foreign c => .error [c]

def checkTokens (p : Place) : List Token → Except (List Char) Unit
  | [] => .ok ()
  | t :: rest =>
    match p.next t with
    | .ok p => checkTokens p rest
    | .error chars => .error chars

/-- Accepts a definition, or refuses it for its first unsafe token. -/
def check (definition : String) : Except Failure Unit :=
  match checkTokens .outside (lex definition) with
  | .ok () => .ok ()
  | .error chars => .error (.invalidIdentifier (.token (String.ofList chars) definition))

end ColumnDefinition

end QueryChain
