/-!
TOML documents as trees. A table remembers how it came to be, because that decides what may still
be added to it: `assign` sets a dotted key and `openSection` places what stands under a header.
-/

namespace QueryChain

/-- How a table came to be: under a header of its own, on the way to another header, through a
dotted key, or in braces. -/
inductive TableOrigin
  | header
  | implied
  | dotted
  | braces
  deriving DecidableEq

/-- A TOML value. Moments are checked when they are read and carry nothing; `beyond` is a number
outside the range that can be held. -/
inductive Toml
  | text (s : String)
  | flag (b : Bool)
  | integer (n : Int)
  | float
  | beyond
  | moment
  | array (items : List Toml)
  | tables (items : List (List (String × Toml)))
  | table (origin : TableOrigin) (entries : List (String × Toml))

namespace Toml

abbrev Table := List (String × Toml)

/-- Gives the key `k` the value `v`, at its old place if it has one. -/
def put (k : String) (v : Toml) : Table → Table
  | [] => [(k, v)]
  | (l, w) :: rest => if k = l then (k, v) :: rest else (l, w) :: put k v rest

def changeLast (change : Table → Option Table) : List Table → Option (List Table)
  | [] => none
  | [t] => (change t).map ([·])
  | t :: rest => (changeLast change rest).map (t :: ·)

structure Path where
  outer : List String
  name : String
  deriving DecidableEq

/-- Sets a key that has no value yet; `outer` are the tables on its way. A table that a header or
braces made takes no dotted keys. -/
def assign : List String → String → Toml → Table → Option Table
  | [], k, v, t => if (t.lookup k).isSome then none else some (put k v t)
  | p :: outer, k, v, t =>
    match t.lookup p with
    | none => (assign outer k v []).map fun s => put p (.table .dotted s) t
    | some (.table .dotted s) => (assign outer k v s).map fun s => put p (.table .dotted s) t
    | some (.table .implied s) =>
      if outer.isEmpty then none
      else (assign outer k v s).map fun s => put p (.table .implied s) t
    | some (.tables ts) =>
      if outer.isEmpty then none
      else (changeLast (assign outer k v) ts).map fun ts => put p (.tables ts) t
    | some _ => none

def assignAll (entries : List (Path × Toml)) (t : Table) : Option Table :=
  entries.foldlM (fun t (path, v) => assign path.outer path.name v t) t

/-- Changes the table at the end of a way of headers, making the tables that are missing. -/
def change (f : Table → Option Table) : List String → Table → Option Table
  | [], t => f t
  | p :: outer, t =>
    match t.lookup p with
    | none => (change f outer []).map fun s => put p (.table .implied s) t
    | some (.table .braces _) => none
    | some (.table origin s) => (change f outer s).map fun s => put p (.table origin s) t
    | some (.tables ts) => (changeLast (change f outer) ts).map fun ts => put p (.tables ts) t
    | some _ => none

/-- A header with what stands under it. A repeated header adds one more table to its key. -/
structure Section where
  path : Path
  repeated : Bool
  entries : List (Path × Toml)

/-- Places a section. A plain header is allowed once, and not for a table made otherwise. -/
def openSection (t : Table) (s : Section) : Option Table :=
  change (fun t =>
    match t.lookup s.path.name, s.repeated with
    | none, false => (assignAll s.entries []).map fun b => put s.path.name (.table .header b) t
    | some (.table .implied old), false =>
      (assignAll s.entries old).map fun b => put s.path.name (.table .header b) t
    | none, true => (assignAll s.entries []).map fun b => put s.path.name (.tables [b]) t
    | some (.tables ts), true =>
      (assignAll s.entries []).map fun b => put s.path.name (.tables (ts ++ [b])) t
    | some _, _ => none) s.path.outer t

/-- The document of the entries before the first header and of the sections. -/
def build (entries : List (Path × Toml)) (sections : List Section) : Option Table := do
  sections.foldlM openSection (← assignAll entries [])

mutual

def isHeld : Toml → Bool
  | .beyond => false
  | .array items => areHeld items
  | .tables items => areTablesHeld items
  | .table _ entries => isTableHeld entries
  | _ => true

def areHeld : List Toml → Bool
  | [] => true
  | v :: rest => isHeld v && areHeld rest

def isTableHeld : List (String × Toml) → Bool
  | [] => true
  | (_, v) :: rest => isHeld v && isTableHeld rest

def areTablesHeld : List (List (String × Toml)) → Bool
  | [] => true
  | t :: rest => isTableHeld t && areTablesHeld rest

end

end Toml

end QueryChain
