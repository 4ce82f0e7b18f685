import QueryChain.Sql.Dialect
import QueryChain.Sql.Keyword

/-!
Base statements taken apart. The text before the first clause keyword is the head; every clause
keyword behind the first FROM opens a cut that reaches up to the next one, and the clauses that
bound the rows are read as numbers.
-/

namespace QueryChain

open Number Text

/-- A clause of a base statement: its keyword as it is written, and the text up to the next. -/
structure Cut where
  keyword : Keyword
  word : List Char
  body : List Char

/-- The text of a statement without blanks at its end and the semicolons before them. -/
def trimStatement (cs : List Char) : List Char :=
  trimEndChars (dropEndWhile (· == ';') (trimEndChars cs))

namespace Mark

def fromEnd (marks : List Mark) : Nat :=
  match marks.find? (·.keyword == .source) with
  | some m => m.stop
  | none => 0

/-- The first mark of each clause keyword that is not yet seen. -/
def firsts (seen : List Keyword) : List Mark → List Mark
  | [] => []
  | m :: rest =>
    if m.keyword ∈ seen then firsts seen rest else m :: firsts (m.keyword :: seen) rest

/-- The marks that open a clause: the first of each keyword behind the first FROM. -/
def clauses (marks : List Mark) : List Mark :=
  firsts [.source] (marks.filter (fromEnd marks ≤ ·.start))

end Mark

/-- Cuts a text at the given marks, the first of them at the front of `cs`. -/
def cutAt (position : Nat) : List Mark → List Char → List Cut
  | [], _ => []
  | m :: rest, cs =>
    let stop := match rest with
      | next :: _ => next.start - position
      | [] => cs.length
    let clause := cs.take stop
    ⟨m.keyword, clause.take (m.stop - m.start), clause.drop (m.stop - m.start)⟩ ::
      cutAt (position + stop) rest (cs.drop stop)

def splitBase (cs : List Char) : List Char × List Cut :=
  match Mark.clauses (Mark.scan cs) with
  | [] => (cs, [])
  | m :: rest => (cs.take m.start, cutAt m.start (m :: rest) (cs.drop m.start))

def takeSection (p : Placeholder) (cs : List Char) (params : List Value) :
    Fragment × List Value :=
  let n := p.countFrom .plain cs
  (⟨String.ofList (trimChars cs), params.take n⟩, params.drop n)

def isRows (word : String) : Bool :=
  sameLetters word "ROWS" || sameLetters word "ROW"

/-- The number that a word of a bound is: a numeral, or a placeholder whose parameter, the next
one, is an integer. What is left of the parameters comes with it. -/
def boundNumber? (p : Placeholder) (word : String) (params : List Value) :
    Option (Int64 × List Value) :=
  if word = p.token then
    match params with
    | .int n :: rest => some (n, rest)
    | _ => none
  else match readInt64 word with
    | .ok n => some (n, params)
    | .error _ => none

/-- Reads a clause `LIMIT n`, `OFFSET n`, `OFFSET n ROWS` or
`OFFSET n ROWS FETCH NEXT m ROWS ONLY` into the bounds. -/
def liftBound? (p : Placeholder) (clause : BoundClause) (body : Fragment) (b : Bounds) :
    Option Bounds :=
  let number := boundNumber? p
  match clause, words body.sql with
  | .limit, [n] => (number n body.params).map fun (n, _) => { b with limit := some n }
  | .offset, [n] => (number n body.params).map fun (n, _) => { b with offset := some n }
  | .offset, [n, rows] =>
    if isRows rows then
      (number n body.params).map fun (n, _) => { b with offset := some n }
    else none
  | .offset, [n, rows, fetch, next, m, unit, only] =>
    if isRows rows && sameLetters fetch "FETCH" &&
        (sameLetters next "NEXT" || sameLetters next "FIRST") && isRows unit &&
        sameLetters only "ONLY" then
      (number n body.params).bind fun (n, params) =>
        (number m params).map fun (m, _) => ⟨some m, some n⟩
    else none
  | _, _ => none

end QueryChain
