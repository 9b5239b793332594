import CheckedActions.Json.Sorted
import CheckedActions.Log.Record
import CheckedActions.Text.Coding

/-!
How log records are shown: which of them, and in which form. Records of the library itself are
shown from the debug level on where that is asked for; all others from the warning level on.
-/

namespace CheckedActions

structure LogSetup where
  verbose : Bool := false
  json : Bool := false

namespace LogSetup

/-- The logger whose records the library writes. -/
def libraryLogger : String := "jackprop"

def libraryLevel (s : LogSetup) : LogLevel := if s.verbose then .debug else .warning

/-- Whether a logger is the library's, or lies below it. -/
def isLibrary (logger : String) : Bool :=
  logger = libraryLogger || (libraryLogger.toList ++ ['.']).isPrefixOf logger.toList

/-- The least level of a logger's records that are shown. -/
def threshold (s : LogSetup) (logger : String) : LogLevel :=
  if isLibrary logger then s.libraryLevel else .warning

def shows (s : LogSetup) (r : LogRecord) : Bool := (s.threshold r.logger).rank ≤ r.level.rank

end LogSetup

namespace LogRecord

/-- A text that stands in a line as it is. -/
def isBare (s : String) : Bool :=
  s.all fun c => !([' ', '\t', '=', '\r', '\n', '"', '\''].contains c)

def valueText : Value → String
  | .str s => if isBare s then s else quoteText s
  | v => v.quoted

/-- A text filled up with blanks to so many characters. -/
def padded (width : Nat) (s : String) : String :=
  s ++ String.ofList (List.replicate (width - s.length) ' ')

/-- A value in a record, where bytes stand for the text they write. -/
def decoded : Value → Value
  | .bytes bs => .str (Utf8.lenient bs)
  | v => v

/-- The names bound to a record beside its own fields, in order of their code points. -/
def sortedKeys (r : LogRecord) : LogKeys :=
  let ownFields := ["level", "logger", "timestamp"]
  ((r.keys.filter fun (k, _) => !ownFields.contains k).map fun (k, v) => (k, decoded v)).mergeSort
    fun a b => a.1 ≤ b.1

/-- The record as a line for people. -/
def consoleLine (r : LogRecord) : String :=
  let head := "[" ++ padded 9 r.level.name ++ "] " ++ padded 30 r.event ++ " [" ++ r.logger ++ "]"
  " ".intercalate (head :: r.sortedKeys.map fun (k, v) => k ++ "=" ++ valueText v)

/-- The record as an object. -/
def toValue (r : LogRecord) : Value :=
  Value.record (r.sortedKeys ++
    [("event", .str r.event), ("level", .str r.level.name), ("logger", .str r.logger)])

/-- The record as a line for programs. -/
def jsonLine (r : LogRecord) : Except Failure String :=
  let document := r.toValue.toDocument false fun v => v.ifWritable v.quoted
  document.map (Json.Document.render Json.Style.line)

end LogRecord
end CheckedActions
