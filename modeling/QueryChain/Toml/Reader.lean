import QueryChain.Toml.Scalar

/-!
Reading TOML text by the grammar of TOML 1.1, as the `toml` library does. A document is a run of
entries and then of sections, each a header with the entries under it; whatever is not well formed
makes the whole text unreadable.
-/

namespace QueryChain.Toml

open Number

def isSpace (c : Char) : Bool :=
  c == ' ' || c == '\t'

def skipSpace (cs : List Char) : List Char :=
  cs.dropWhile isSpace

def isControl (c : Char) : Bool :=
  (c.toNat < 0x20 && c != '\t') || c.toNat == 0x7F

/-- Skips blanks, line ends and comments; `commented` says whether a comment has begun. -/
def skipLines : Bool → List Char → Option (List Char)
  | _, [] => some []
  | _, '\n' :: rest => skipLines false rest
  | _, '\r' :: '\n' :: rest => skipLines false rest
  | true, c :: rest => if isControl c then none else skipLines true rest
  | false, '#' :: rest => skipLines true rest
  | false, c :: rest => if isSpace c then skipLines false rest else some (c :: rest)

/-- Skips the rest of a line: blanks, a comment and the line end. -/
def endLine? (cs : List Char) : Option (List Char) :=
  let rest := match skipSpace cs with
    | '#' :: rest => rest.dropWhile fun c => !isControl c
    | rest => rest
  match rest with
  | [] => some []
  | '\n' :: rest => some rest
  | '\r' :: '\n' :: rest => some rest
  | _ => none

def charOfHex? (ds : List Char) : Option Char := do
  let n ← ds.foldlM (fun n c => (hexValue? c).map (16 * n + ·)) 0
  if n.isValidChar then some (Char.ofNat n) else none

def simpleEscape? : Char → Option Char
  | '"' => some '"'
  | '\\' => some '\\'
  | 'b' => some '\x08'
  | 'e' => some '\x1b'
  | 'f' => some '\x0c'
  | 'n' => some '\n'
  | 'r' => some '\r'
  | 't' => some '\t'
  | _ => none

def readEscape? : List Char → Option (Char × List Char)
  | 'x' :: a :: b :: rest => (charOfHex? [a, b]).map (·, rest)
  | 'u' :: a :: b :: c :: d :: rest => (charOfHex? [a, b, c, d]).map (·, rest)
  | 'U' :: a :: b :: c :: d :: e :: f :: g :: h :: rest =>
    (charOfHex? [a, b, c, d, e, f, g, h]).map (·, rest)
  | e :: rest => (simpleEscape? e).map (·, rest)
  | [] => none

def readBasic : Nat → List Char → Option (List Char × List Char)
  | 0, _ => none
  | fuel + 1, cs => do
    match cs with
    | [] => none
    | '"' :: rest => some ([], rest)
    | '\\' :: rest =>
      let (c, rest) ← readEscape? rest
      let (s, tail) ← readBasic fuel rest
      some (c :: s, tail)
    | c :: rest =>
      if isControl c then none
      else
        let (s, tail) ← readBasic fuel rest
        some (c :: s, tail)

def readLiteral : List Char → Option (List Char × List Char)
  | [] => none
  | '\'' :: rest => some ([], rest)
  | c :: rest =>
    if isControl c then none else (readLiteral rest).map fun (s, tail) => (c :: s, tail)

/-- The end of a string on several lines: three quotes, before which up to two more may stand. -/
def closing? (quote : Char) (cs : List Char) : Option (List Char × List Char) :=
  let quotes := min 5 (cs.takeWhile (· == quote)).length
  if 3 ≤ quotes then some (List.replicate (quotes - 3) quote, cs.drop quotes) else none

def isBreak (c : Char) : Bool :=
  isSpace c || c == '\n' || c == '\r'

def endsLine (cs : List Char) : Bool :=
  match skipSpace cs with
  | '\n' :: _ | '\r' :: '\n' :: _ => true
  | _ => false

/-- Whether a string on several lines may hold a character; a carriage return needs a line feed
behind it. -/
def isLineChar (c : Char) (rest : List Char) : Bool :=
  c == '\n' || (c == '\r' && rest.head? == some '\n') || !isControl c

/-- Reads a string on several lines after its opening quotes. A backslash at the end of a line
drops the blanks and line ends that follow it. -/
def readLongBasic : Nat → List Char → Option (List Char × List Char)
  | 0, _ => none
  | fuel + 1, cs =>
    match closing? '"' cs with
    | some found => some found
    | none => do
      match cs with
      | [] => none
      | '\\' :: rest =>
        if endsLine rest then
          readLongBasic fuel (rest.dropWhile isBreak)
        else
          let (c, rest) ← readEscape? rest
          let (s, tail) ← readLongBasic fuel rest
          some (c :: s, tail)
      | c :: rest =>
        if isLineChar c rest then
          let (s, tail) ← readLongBasic fuel rest
          some (c :: s, tail)
        else none

def readLongLiteral : Nat → List Char → Option (List Char × List Char)
  | 0, _ => none
  | fuel + 1, cs =>
    match closing? '\'' cs with
    | some found => some found
    | none => do
      match cs with
      | [] => none
      | c :: rest =>
        if isLineChar c rest then
          let (s, tail) ← readLongLiteral fuel rest
          some (c :: s, tail)
        else none

/-- Drops the line end with which a string on several lines may begin. -/
def dropFirstBreak : List Char → List Char
  | '\n' :: rest => rest
  | '\r' :: '\n' :: rest => rest
  | cs => cs

def readString (fuel : Nat) (cs : List Char) : Option (List Char × List Char) :=
  match cs with
  | '"' :: '"' :: '"' :: rest => readLongBasic fuel (dropFirstBreak rest)
  | '\'' :: '\'' :: '\'' :: rest => readLongLiteral fuel (dropFirstBreak rest)
  | '"' :: rest => readBasic fuel rest
  | '\'' :: rest => readLiteral rest
  | _ => none

def isBareKeyChar (c : Char) : Bool :=
  c.isAlphanum || c == '_' || c == '-'

def readKeyPart (fuel : Nat) (cs : List Char) : Option (List Char × List Char) :=
  match cs with
  | '"' :: rest => readBasic fuel rest
  | '\'' :: rest => readLiteral rest
  | cs =>
    let word := cs.takeWhile isBareKeyChar
    if word.isEmpty then none else some (word, cs.dropWhile isBareKeyChar)

/-- Reads a key, the parts of which are divided by points, and the blanks around it. -/
def readPath : Nat → List Char → Option (Path × List Char)
  | 0, _ => none
  | fuel + 1, cs => do
    let (part, rest) ← readKeyPart fuel (skipSpace cs)
    let name := String.ofList part
    match skipSpace rest with
    | '.' :: rest =>
      let (path, tail) ← readPath fuel rest
      some (⟨name :: path.outer, path.name⟩, tail)
    | rest => some (⟨[], name⟩, rest)

def isWordChar (c : Char) : Bool :=
  c.isAlphanum || c == '_' || c == '-' || c == '+' || c == '.' || c == ':'

/-- Cuts off the word at the front. A date takes a time of day behind one blank with it. -/
def takeWord (cs : List Char) : List Char × List Char :=
  let word := cs.takeWhile isWordChar
  let rest := cs.dropWhile isWordChar
  match date? word, rest with
  | some [], ' ' :: a :: b :: ':' :: tail =>
    if a.isDigit && b.isDigit then
      (word ++ ' ' :: a :: b :: ':' :: tail.takeWhile isWordChar, tail.dropWhile isWordChar)
    else (word, rest)
  | _, _ => (word, rest)

mutual

/-- Reads one value. `fuel` bounds the steps and `depth` the nesting that is left. -/
def readValue : Nat → Nat → List Char → Option (Toml × List Char)
  | 0, _, _ => none
  | fuel + 1, depth, cs =>
    match cs with
    | '"' :: _ | '\'' :: _ =>
      (readString fuel cs).map fun (s, tail) => (.text (String.ofList s), tail)
    | '[' :: rest =>
      match depth with
      | 0 => none
      | depth + 1 => (readItems fuel depth rest).map fun (items, tail) => (.array items, tail)
    | '\x7b' :: rest =>
      match depth with
      | 0 => none
      | depth + 1 => do
        let (entries, tail) ← readEntries fuel depth rest
        some (.table .braces (← assignAll entries []), tail)
    | cs =>
      let (word, rest) := takeWord cs
      (scalar? word).map (·, rest)

def readItems : Nat → Nat → List Char → Option (List Toml × List Char)
  | 0, _, _ => none
  | fuel + 1, depth, cs => do
    match ← skipLines false cs with
    | ']' :: tail => some ([], tail)
    | cs =>
      let (v, rest) ← readValue fuel depth cs
      match ← skipLines false rest with
      | ',' :: rest =>
        let (items, tail) ← readItems fuel depth rest
        some (v :: items, tail)
      | ']' :: tail => some ([v], tail)
      | _ => none

def readEntries : Nat → Nat → List Char → Option (List (Path × Toml) × List Char)
  | 0, _, _ => none
  | fuel + 1, depth, cs => do
    match ← skipLines false cs with
    | '\x7d' :: tail => some ([], tail)
    | cs =>
      let (entry, rest) ← readEntry fuel depth cs
      match ← skipLines false rest with
      | ',' :: rest =>
        let (entries, tail) ← readEntries fuel depth rest
        some (entry :: entries, tail)
      | '\x7d' :: tail => some ([entry], tail)
      | _ => none

def readEntry : Nat → Nat → List Char → Option ((Path × Toml) × List Char)
  | 0, _, _ => none
  | fuel + 1, depth, cs => do
    let (path, rest) ← readPath fuel cs
    match rest with
    | '=' :: rest =>
      let (v, tail) ← readValue fuel depth (skipSpace rest)
      some ((path, v), tail)
    | _ => none

end

def maxDepth : Nat := 80

def readLines : Nat → List Char → Option (List (Path × Toml) × List Char)
  | 0, _ => none
  | fuel + 1, cs => do
    match ← skipLines false cs with
    | [] => some ([], [])
    | '[' :: rest => some ([], '[' :: rest)
    | cs =>
      let (entry, rest) ← readEntry fuel maxDepth cs
      let (entries, tail) ← readLines fuel (← endLine? rest)
      some (entry :: entries, tail)

def readHeader (fuel : Nat) (cs : List Char) : Option ((Path × Bool) × List Char) := do
  match cs with
  | '[' :: '[' :: rest =>
    match ← readPath fuel rest with
    | (path, ']' :: ']' :: tail) => some ((path, true), ← endLine? tail)
    | _ => none
  | '[' :: rest =>
    match ← readPath fuel rest with
    | (path, ']' :: tail) => some ((path, false), ← endLine? tail)
    | _ => none
  | _ => none

def readSections : Nat → List Char → Option (List Section)
  | 0, _ => none
  | _, [] => some []
  | fuel + 1, cs => do
    let ((path, repeated), rest) ← readHeader fuel cs
    let (entries, tail) ← readLines fuel rest
    return ⟨path, repeated, entries⟩ :: (← readSections fuel tail)

/-- Reads a document; a mark of the byte order may stand in front of it. -/
def parse? (s : String) : Option Table := do
  let cs := match s.toList with
    | '\ufeff' :: rest => rest
    | cs => cs
  let fuel := 4 * cs.length + 4
  let (entries, rest) ← readLines fuel cs
  build entries (← readSections fuel rest)

end QueryChain.Toml
