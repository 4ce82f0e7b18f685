import QueryChain.Json.Library
import QueryChain.Time.Library

/-!
The libraries that values go through when they become text and are read back.
-/

namespace QueryChain

structure Libraries where
  json : JsonLibrary
  time : Time.TimeLibrary

namespace Libraries

def own : Libraries where
  json := .own
  time := .own

def momentText (lib : Libraries) (t : Time.Moment) : String :=
  String.ofList (lib.time.format Time.timestampFormat t)

end Libraries

end QueryChain
