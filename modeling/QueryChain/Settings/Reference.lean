import QueryChain.Settings.Basic

/-!
References to variables inside a text: a dollar sign and a name in braces. They are replaced in one
pass, so that what a variable holds is copied as it stands.
-/

namespace QueryChain.Settings

/-- Replaces the references of a text. The first argument is the part of a name that was read
behind an opening brace, if one is open. -/
def expandChars (vars : Variables) : Option (List Char) → List Char →
    Except ConfigFault (List Char)
  | none, [] => .ok []
  | none, '$' :: '\x7b' :: rest => expandChars vars (some []) rest
  | none, c :: rest => (expandChars vars none rest).map (c :: ·)
  | some name, [] => .error (.unclosedReference (String.ofList name))
  | some name, c :: rest =>
    if c = '\x7d' then
      if name.isEmpty then .error .emptyReference
      else match vars (String.ofList name) with
        | none => .error (.missingVariable (String.ofList name))
        | some held => (expandChars vars none rest).map (held.toList ++ ·)
    else expandChars vars (some (name ++ [c])) rest

def expand (vars : Variables) (s : String) : Except Failure String :=
  match expandChars vars none s.toList with
  | .ok cs => .ok (String.ofList cs)
  | .error e => .error (.config e)

end QueryChain.Settings
