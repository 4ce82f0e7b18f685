import QueryChain.Text.Category

/-!
The quoted form that messages give to a text or to a single character: backslash escapes for the
quote mark, the backslash and the usual controls, and `\u{hex}` for whatever would not show.
-/

namespace QueryChain.Text

/-- Escapes `c` between marks of kind `mark`. -/
def escapeShown (mark c : Char) : List Char :=
  if c = '\x00' then ['\\', '0']
  else if c = '\t' then ['\\', 't']
  else if c = '\n' then ['\\', 'n']
  else if c = '\r' then ['\\', 'r']
  else if c = '\\' || c = mark then ['\\', c]
  else if isPrintable c && !isCombining c then [c]
  else ['\\', 'u', Char.ofNat 0x7B] ++ Nat.toDigits 16 c.toNat ++ [Char.ofNat 0x7D]

def quoted (s : String) : String :=
  String.ofList (['"'] ++ s.toList.flatMap (escapeShown '"') ++ ['"'])

def quotedChar (c : Char) : String :=
  String.ofList (['\''] ++ escapeShown '\'' c ++ ['\''])

def quotedList (items : List String) : String :=
  "[" ++ ", ".intercalate (items.map quoted) ++ "]"

end QueryChain.Text
