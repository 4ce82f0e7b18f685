import QueryChain.Settings.Reference
import QueryChain.Toml.Reader

/-!
Settings from a TOML document. Keys without a meaning are passed over. A section may also be given
as an array of its values in order, and a moment counts as a section without keys.
-/

namespace QueryChain.Settings

open Toml

def asText? : Toml → Option String
  | .text s => some s
  | _ => none

def asFlag? : Toml → Option Bool
  | .flag b => some b
  | _ => none

def asLength? : Toml → Option Nat
  | .integer n => if 0 ≤ n ∧ n < 2 ^ 64 then some n.toNat else none
  | _ => none

/-- Reads a value if there is one; nothing is answered when it cannot be read. -/
def readOr {α : Type} (read : Toml → Option α) (absent : α) : Option Toml → Option α
  | some v => read v
  | none => some absent

def isEmptyValue : Toml → Bool
  | .array [] | .table _ [] => true
  | _ => false

/-- A dialect is given by its exact name, or as the only key of a table, with nothing in it. -/
def asDialect? : Toml → Option Dialect
  | .text s => Dialect.ofName? s
  | .table _ [(name, v)] => if isEmptyValue v then Dialect.ofName? name else none
  | _ => none

def asDatabase? : Toml → Option DatabaseSettings
  | .table _ t => do
    return { url := ← readOr (fun v => (asText? v).map some) none (t.lookup "url")
             path := ← readOr asText? ({} : DatabaseSettings).path (t.lookup "path") }
  | .array (url :: rest) => do
    return { url := some (← asText? url)
             path := ← readOr asText? ({} : DatabaseSettings).path rest.head? }
  | .moment => some {}
  | _ => none

def asStatementLog? : Toml → Option StatementLog
  | .table _ t => read (t.lookup "enabled") (t.lookup "level") (t.lookup "max_sql_length")
  | .array items => read items[0]? items[1]? items[2]?
  | .moment => some {}
  | _ => none
where
  read (enabled level maxLength : Option Toml) : Option StatementLog := do
    let plain : StatementLog := {}
    return { enabled := ← readOr asFlag? plain.enabled enabled
             level := ← readOr asText? plain.level level
             maxLength := ← readOr asLength? plain.maxLength maxLength }

def ofTable? (t : Table) : Option Settings := do
  if isTableHeld t then
    return { dialect := ← readOr asDialect? .sqlite (t.lookup "dialect")
             database := ← readOr asDatabase? {} (t.lookup "database")
             statementLog := ← readOr asStatementLog? {} (t.lookup "sql_log") }
  else none

/-- The settings that a document gives. References are replaced in the URL and then in the path. -/
def ofToml (vars : Variables) (text : String) : Except Failure Settings :=
  match (Toml.parse? text).bind ofTable? with
  | none => .error (.config .unreadable)
  | some s => do
    let url ← match s.database.url with
      | some u => (expand vars u).map some
      | none => .ok none
    let path ← expand vars s.database.path
    check { s with database := { url, path } }

end QueryChain.Settings
