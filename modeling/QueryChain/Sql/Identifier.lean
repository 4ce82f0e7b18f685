import QueryChain.Failure

/-!
Names that may stand in SQL text. An identifier is a word of ASCII letters, digits and underscores,
a qualified name is a list of them, and both are written between double quotes.
-/

namespace QueryChain

def isNameChar (c : Char) : Bool :=
  c == '_' || c.isAlphanum

structure Identifier where
  chars : List Char
  nonempty : chars ≠ []
  safe : ∀ c ∈ chars, isNameChar c = true
  deriving DecidableEq

namespace Identifier

def badChar? (cs : List Char) : Option Char :=
  cs.find? (!isNameChar ·)

theorem safe_of_badChar?_eq_none {cs : List Char} (h : badChar? cs = none) :
    ∀ c ∈ cs, isNameChar c = true := by
  simpa [badChar?, List.find?_eq_none] using h

/-- The identifier with the given characters; a list that is none is handed to the faults. -/
def check {ε : Type} (empty : ε) (bad : Char → ε) (cs : List Char) : Except ε Identifier :=
  if hne : cs = [] then .error empty
  else match h : badChar? cs with
    | some c => .error (bad c)
    | none => .ok ⟨cs, hne, safe_of_badChar?_eq_none h⟩

def name (i : Identifier) : String :=
  String.ofList i.chars

def sql (i : Identifier) : String :=
  "\"" ++ i.name ++ "\""

/-- Reads the name of a column, which has no parts. -/
def ofField (s : String) : Except Failure Identifier :=
  (check .empty (.character · s) s.toList).mapError .invalidField

end Identifier

/-- A name of one or more parts, such as a table in a schema. -/
structure QualifiedName where
  parts : List Identifier
  nonempty : parts ≠ []
  deriving DecidableEq

namespace QualifiedName

def checkParts (s : String) : List (List Char) → Except IdentifierFault (List Identifier)
  | [] => .ok []
  | part :: rest =>
    match Identifier.check (.emptyPart s) (.character · s) part with
    | .error fault => .error fault
    | .ok i =>
      match checkParts s rest with
      | .error fault => .error fault
      | .ok is => .ok (i :: is)

def ofParts (fault : IdentifierFault) (parts : List Identifier) :
    Except IdentifierFault QualifiedName :=
  if h : parts = [] then .error fault else .ok ⟨parts, h⟩

def parse (s : String) : Except Failure QualifiedName :=
  Except.mapError .invalidIdentifier <|
    if s.isEmpty then .error .empty
    else (checkParts s (s.toList.splitOn '.')).bind (ofParts .empty)

def ofIdentifier (i : Identifier) : QualifiedName :=
  ⟨[i], by simp⟩

def name (n : QualifiedName) : String :=
  (n.parts.getLast n.nonempty).name

def sql (n : QualifiedName) : String :=
  ".".intercalate (n.parts.map Identifier.sql)

end QualifiedName

end QueryChain
