import QueryChain.Settings.Basic

/-!
Settings from the variables of an environment. The variables are read in a fixed order, and the
first that cannot be read is reported.
-/

namespace QueryChain.Settings

open Number Text

def dialectVariable : String := "QSET_DIALECT"
def urlVariable : String := "DATABASE_URL"
def pathVariable : String := "QSET_DATABASE_PATH"
def logVariable : String := "QSET_SQL_LOG"
def levelVariable : String := "QSET_SQL_LOG_LEVEL"
def lengthVariable : String := "QSET_SQL_LOG_MAX_LENGTH"

def readFlag (name given : String) : Except Failure Bool :=
  match String.ofList ((trimChars given.toList).map Char.toLower) with
  | "1" | "true" | "yes" | "on" => .ok true
  | "0" | "false" | "no" | "off" | "" => .ok false
  | _ => .error (.config (.flag name given))

def readLength (name given : String) : Except Failure Nat :=
  match readUInt64? (trim given) with
  | some n => .ok n.toNat
  | none => .error (.config (.length name given))

/-- Reads a variable, or answers what holds without it. -/
def readVariable {α : Type} (vars : Variables) (name : String) (read : String → Except Failure α)
    (absent : α) : Except Failure α :=
  match vars name with
  | some given => read given
  | none => .ok absent

/-- The settings that the variables give. A blank URL counts as none. -/
def ofVariables (vars : Variables) : Except Failure Settings := do
  let plain : Settings := {}
  let dialect ← readVariable vars dialectVariable Dialect.parse plain.dialect
  let enabled ← readVariable vars logVariable (readFlag logVariable) plain.statementLog.enabled
  let maxLength ←
    readVariable vars lengthVariable (readLength lengthVariable) plain.statementLog.maxLength
  check
    { dialect
      database :=
        { url := (vars urlVariable).filter fun u => !(trim u).isEmpty
          path := (vars pathVariable).getD plain.database.path }
      statementLog :=
        { enabled, level := (vars levelVariable).getD plain.statementLog.level, maxLength } }

end QueryChain.Settings
