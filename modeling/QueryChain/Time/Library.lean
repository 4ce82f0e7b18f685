import QueryChain.Time.Iso

/-!
ISO 8601 text of moments: the one format in which they are written, and the forms that are tried in
turn when a text is read. What a format means is up to the library that is at hand; `own` is that of
the project, with the specifiers as `chrono` documents them.
-/

namespace QueryChain.Time

open Text

/-- A library that writes moments and reads texts. A zoned text names the moment of offset 0. -/
structure TimeLibrary where
  format : List Char → Moment → List Char
  parseRfc3339? : List Char → Option Moment
  parseZoned? : List Char → List Char → Option Moment
  parseMoment? : List Char → List Char → Option Moment
  parseDate? : List Char → List Char → Option Date

/-- The format in which timestamps travel as text. -/
def timestampFormat : List Char := "%Y-%m-%dT%H:%M:%S%.f".toList

def zonedFormats : List (List Char) :=
  ["%Y-%m-%dT%H:%M:%S%.f%:z".toList, "%Y-%m-%d %H:%M:%S%.f%:z".toList]

def plainFormats : List (List Char) :=
  ["%Y-%m-%dT%H:%M:%S%.f".toList, "%Y-%m-%d %H:%M:%S%.f".toList, "%Y-%m-%dT%H:%M".toList,
    "%Y-%m-%d %H:%M".toList]

def dateFormat : List Char := "%Y-%m-%d".toList

namespace TimeLibrary

/-- Reads a date or a moment, blanks around it aside. A date alone is its midnight, and an offset
is taken away. -/
def readIso? (lib : TimeLibrary) (s : String) : Option Moment :=
  let cs := trimChars s.toList
  (lib.parseRfc3339? cs).or <| (zonedFormats.findSome? (lib.parseZoned? · cs)).or <|
    (plainFormats.findSome? (lib.parseMoment? · cs)).or <|
      (lib.parseDate? dateFormat cs).map Moment.ofDate

def own : TimeLibrary where
  format format t := formatChars t format
  parseRfc3339? cs := (readPieces? {} strictPieces cs).bind Reading.zoned?
  parseZoned? format cs := (readFormat? format cs).bind Reading.zoned?
  parseMoment? format cs := (readFormat? format cs).bind Reading.wallClock?
  parseDate? format cs := (readFormat? format cs).bind Reading.date?

end TimeLibrary

def Moment.isoText (t : Moment) : String :=
  String.ofList (TimeLibrary.own.format timestampFormat t)

def readIso? (s : String) : Option Moment :=
  TimeLibrary.own.readIso? s

end QueryChain.Time
