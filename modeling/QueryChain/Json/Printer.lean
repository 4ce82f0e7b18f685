import QueryChain.Json.Basic
import QueryChain.Number.Layout

/-!
Compact JSON text, as `serde_json` documents its compact formatter: no blanks, and strings in which
only the quote, the backslash and the controls below the space are escaped, in their short form where
they have one. Floats have the digits of the shortest decimal that reads back.
-/

namespace QueryChain.Json

open Number

/-- JSON floats keep a point or an exponent; an exponent always has a sign. -/
def floatLayout : Layout where
  positional e := -5 ≤ e && e ≤ 15
  pointZero := true
  plus := true
  tie := .even

def escape (c : Char) : List Char :=
  if c = '"' then ['\\', '"']
  else if c = '\\' then ['\\', '\\']
  else if c = '\x08' then ['\\', 'b']
  else if c = '\x0c' then ['\\', 'f']
  else if c = '\n' then ['\\', 'n']
  else if c = '\r' then ['\\', 'r']
  else if c = '\t' then ['\\', 't']
  else if c.toNat < 0x10 then ['\\', 'u', '0', '0', '0'] ++ Nat.toDigits 16 c.toNat
  else if c.toNat < 0x20 then ['\\', 'u', '0', '0'] ++ Nat.toDigits 16 c.toNat
  else [c]

def stringChars (s : String) : List Char :=
  '"' :: s.toList.flatMap escape ++ ['"']

mutual

def chars : Json → List Char
  | .null => "null".toList
  | .bool true => "true".toList
  | .bool false => "false".toList
  | .whole n => intChars n.val
  | .float x => (floatLayout.write x.val).toList
  | .text s => stringChars s
  | .array items => '[' :: itemChars items ++ [']']
  | .object members => Char.ofNat 0x7B :: memberChars members ++ [Char.ofNat 0x7D]

def itemChars : List Json → List Char
  | [] => []
  | [j] => chars j
  | j :: rest => chars j ++ ',' :: itemChars rest

def memberChars : List (String × Json) → List Char
  | [] => []
  | [(k, j)] => stringChars k ++ ':' :: chars j
  | (k, j) :: rest => stringChars k ++ ':' :: chars j ++ ',' :: memberChars rest

end

def render (j : Json) : String :=
  String.ofList j.chars

end QueryChain.Json
