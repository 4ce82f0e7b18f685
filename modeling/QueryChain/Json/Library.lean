import QueryChain.Json.Printer
import QueryChain.Json.Reader

/-!
The library that writes and reads JSON text. `own` is that of the project, which follows the format
that `serde_json` documents: no blanks, the members of an object in the order of their keys, and at
most 127 levels of arrays and objects.
-/

namespace QueryChain

/-- Two writers, of which the first may fail, and a reader. -/
structure JsonLibrary where
  serialize? : Json → Option String
  display : Json → String
  parse? : String → Option Json

def JsonLibrary.own : JsonLibrary where
  serialize? j := some j.render
  display := Json.render
  parse? := Json.parse?

end QueryChain
