import QueryChain.Text.Quoted
import QueryChain.Text.Utf8
import QueryChain.Value.Basic

/-!
Texts of values: the plain text that patterns match, the form for people, and the form for
diagnosis that names each variant.
-/

namespace QueryChain

open Number Text

/-- Plain texts of numbers are positional throughout. -/
def textLayout : Layout where
  positional _ := true
  pointZero := false
  plus := false
  tie := .up

/-- Numbers in diagnoses are positional from a ten-thousandth up to sixteen digits. -/
def diagnosticLayout : Layout where
  positional e := -4 ≤ e && e ≤ 15
  pointZero := true
  plus := false
  tie := .up

namespace Json

mutual

def diagnose : Json → String
  | .null => "Null"
  | .bool b => "Bool(" ++ toString b ++ ")"
  | .whole n => "Number(" ++ intText n.val ++ ")"
  | .float x => "Number(" ++ floatLayout.write x.val ++ ")"
  | .text s => "String(" ++ quoted s ++ ")"
  | .array items => "Array [" ++ ", ".intercalate (diagnoseItems items) ++ "]"
  | .object members =>
    "Object \x7b" ++ ", ".intercalate (diagnoseMembers members) ++ "\x7d"

def diagnoseItems : List Json → List String
  | [] => []
  | j :: rest => diagnose j :: diagnoseItems rest

def diagnoseMembers : List (String × Json) → List String
  | [] => []
  | (k, j) :: rest => (quoted k ++ ": " ++ diagnose j) :: diagnoseMembers rest

end

end Json

/-- The plain text of a value; null has none. -/
def Libraries.toText (lib : Libraries) : Value → String
  | .null => ""
  | .bool b => toString b
  | .int n => intText n.toInt
  | .float x => textLayout.write x
  | .text s => s
  | .blob bytes => ofUtf8Lossy bytes
  | .timestamp t => lib.momentText t
  | .json (.text s) => s
  | .json j => lib.json.display j
  | .list items => lib.json.display (lib.toJson (.list items))

namespace Value

def toText (v : Value) : String :=
  Libraries.own.toText v

def display : Value → String
  | .null => "NULL"
  | .text s => "'" ++ s ++ "'"
  | .blob bytes => "<" ++ bytes.length.repr ++ " bytes>"
  | v => v.toText

mutual

def diagnose : Value → String
  | .null => "Null"
  | .bool b => "Bool(" ++ toString b ++ ")"
  | .int n => "Int(" ++ intText n.toInt ++ ")"
  | .float x => "Float(" ++ diagnosticLayout.write x ++ ")"
  | .text s => "Text(" ++ quoted s ++ ")"
  | .blob bytes => "Blob([" ++ ", ".intercalate (bytes.map fun b => b.toNat.repr) ++ "])"
  | .timestamp t => "Timestamp(" ++ t.isoText ++ ")"
  | .json j => "Json(" ++ j.diagnose ++ ")"
  | .list items => "List([" ++ ", ".intercalate (diagnoseItems items) ++ "])"

def diagnoseItems : List Value → List String
  | [] => []
  | v :: rest => diagnose v :: diagnoseItems rest

end

def diagnoseAll (values : List Value) : String :=
  "[" ++ ", ".intercalate (values.map diagnose) ++ "]"

end Value

end QueryChain
