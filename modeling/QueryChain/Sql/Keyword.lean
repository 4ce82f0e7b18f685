import QueryChain.Text.Blank

/-!
Clause keywords of a statement. The scanner looks past quotes, line comments and parentheses and
reports where the keywords at the top level begin and end.
-/

namespace QueryChain

open Text

inductive Keyword
  | source
  | condition
  | groupBy
  | orderBy
  | limit
  | offset
  deriving DecidableEq

namespace Keyword

def all : List Keyword :=
  [.source, .condition, .groupBy, .orderBy, .limit, .offset]

def words : Keyword → List Char × List Char
  | .source => (['F', 'R', 'O', 'M'], [])
  | .condition => (['W', 'H', 'E', 'R', 'E'], [])
  | .groupBy => (['G', 'R', 'O', 'U', 'P'], ['B', 'Y'])
  | .orderBy => (['O', 'R', 'D', 'E', 'R'], ['B', 'Y'])
  | .limit => (['L', 'I', 'M', 'I', 'T'], [])
  | .offset => (['O', 'F', 'F', 'S', 'E', 'T'], [])

/-- Letters, digits, the underscore and every character outside ASCII belong to words. -/
def isWordChar (c : Char) : Bool :=
  c == '_' || c.isAlphanum || 128 ≤ c.toNat

def startsWord : List Char → Bool
  | c :: _ => isWordChar c
  | [] => false

/-- What follows `word` at the front of a text, when it stands there in any case and ends there. -/
def afterWord? : List Char → List Char → Option (List Char)
  | [], cs => if startsWord cs then none else some cs
  | _ :: _, [] => none
  | w :: word, c :: cs => if c.toUpper = w then afterWord? word cs else none

/-- What follows a keyword at the front of a text; its two words have blanks between them. -/
def after? (k : Keyword) (cs : List Char) : Option (List Char) :=
  match k.words with
  | (first, []) => afterWord? first cs
  | (first, second) =>
    match afterWord? first cs with
    | some (c :: rest) =>
      if isAsciiBlank c then afterWord? second (rest.dropWhile isAsciiBlank) else none
    | _ => none

def atFront? (cs : List Char) : Option (Keyword × List Char) :=
  all.findSome? fun k => (k.after? cs).map (k, ·)

end Keyword

/-- The lexical context of a position in a statement: an open quote, a line comment, a dash that a
second one would make a comment, the depth of parentheses, and whether a word goes on. -/
structure Context where
  quote : Option Char := none
  comment : Bool := false
  dash : Bool := false
  depth : Nat := 0
  inWord : Bool := false
  deriving DecidableEq

namespace Context

def isTop (x : Context) : Bool :=
  x.quote.isNone && !x.comment && x.depth == 0 && !x.inWord

def next (x : Context) (c : Char) : Context :=
  let word := Keyword.isWordChar c
  match x.quote with
  | some q => { x with quote := if c = q then none else some q, dash := false, inWord := word }
  | none =>
    if x.comment then { x with comment := c ≠ '\n', dash := false, inWord := word }
    else if c = '\'' ∨ c = '"' then { x with quote := some c, dash := false, inWord := word }
    else if c = '(' then { x with depth := x.depth + 1, dash := false, inWord := word }
    else if c = ')' then { x with depth := x.depth - 1, dash := false, inWord := word }
    else if c = '-' then { x with comment := x.dash, dash := !x.dash, inWord := word }
    else { x with dash := false, inWord := word }

def after (x : Context) (cs : List Char) : Context :=
  cs.foldl next x

theorem after_append (x : Context) (a b : List Char) :
    x.after (a ++ b) = (x.after a).after b := by
  simp [after, List.foldl_append]

end Context

/-- A keyword in a text, from `start` up to `stop`. -/
structure Mark where
  keyword : Keyword
  start : Nat
  stop : Nat
  deriving DecidableEq

namespace Mark

/-- The keywords of a text that begins in the given context at the given position. -/
def scanFrom (x : Context) (position : Nat) : List Char → List Mark
  | [] => []
  | c :: rest =>
    let here := if x.isTop then
        match Keyword.atFront? (c :: rest) with
        | some (k, tail) => [⟨k, position, position + ((c :: rest).length - tail.length)⟩]
        | none => []
      else []
    here ++ scanFrom (x.next c) (position + 1) rest

/-- The keywords at the top level of a statement. -/
def scan (cs : List Char) : List Mark :=
  scanFrom {} 0 cs

end Mark

end QueryChain
