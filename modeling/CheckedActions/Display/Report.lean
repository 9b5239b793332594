import CheckedActions.Config.Sections
import CheckedActions.Display.ErrorTree
import CheckedActions.Display.Table
import CheckedActions.Json.Report
import CheckedActions.Json.Sorted
import CheckedActions.Service.Result
import CheckedActions.Value.Access

/-!
Service results as output: the whole result as JSON, the minimum, or a display of tables and trees.
A display depends on the operation. What a result does not hold, or holds in another kind than its
operation gives, makes the output fail.
-/

namespace CheckedActions

/-- The lines of an output. -/
abbrev Lines := List (List Char)

namespace Lines

/-- A text in a display of the given width. -/
def ofText (display : Nat) (s : String) : Lines := wrapText display .fold (displayed s)

/-- Lines as one text. -/
def join (ls : Lines) : String := String.ofList (['\n'].intercalate ls)

end Lines

namespace ServiceResult

variable (display : Nat)

/-- A field of the payload. -/
def field? (r : ServiceResult) (name : String) : Option Value := r.data.lookup name

/-- A field of the payload that has to be there. -/
def field (r : ServiceResult) (name : String) : Except Failure Value :=
  match r.field? name with
  | some v => .ok v
  | none => .error (.missingKey (.str name))

def headerLines (r : ServiceResult) : Lines := Lines.ofText display ("OK: " ++ r.op)

/-- Any payload, entry by entry; dictionaries and lists are written as JSON. -/
def genericLines (r : ServiceResult) : Except Failure Lines := do
  let entries ← r.data.mapM fun (k, v) => do
    let written ← match v with
      | .dict _ => v.resultText
      | .list _ => v.resultText
      | v => v.written
    pure (Lines.ofText display ("  " ++ k ++ ": " ++ written))
  return headerLines display r ++ entries.flatten

/-- The actions of a list as a table. -/
def listLines (r : ServiceResult) : Except Failure Lines := do
  let items := (r.field? "items").getD (.list [])
  if !items.truthy then return Lines.ofText display "No actions registered."
  let rows ← (← items.iterate).mapM fun item => do
    let name ← (← item.subscript "name").displayText
    let description ← (← item.subscript "description").displayText
    pure [displayed name, displayed description]
  let size ← items.size
  let count := (r.field? "count").getD (.int size)
  let table : Table := ⟨none, ["Name".toList, "Description".toList], rows⟩
  return table.lines display ++ Lines.ofText display (count.text ++ " action(s)")

/-- The fields of one side of an action as a table. -/
def sideLines (r : ServiceResult) (side : String) : Except Failure Lines := do
  let fields ← ((r.field? side).getD (.dict [])).entriesOf
  let rows ← fields.mapM fun (k, v) => do
    let name ← k.displayText
    let label ← v.displayText
    pure [displayed name, displayed label]
  let rows := if rows.isEmpty then [[['—'], []]] else rows
  let table : Table := ⟨some side.toList, ["Field".toList, "Validator".toList], rows⟩
  let note := if ((r.field? ("has_default_" ++ side)).getD .null).truthy
    then Lines.ofText display "defaults supplied by a provider" else []
  return table.lines display ++ note

def describeLines (r : ServiceResult) : Except Failure Lines := do
  let name ← (← r.field "name").displayText
  let description ← (← r.field "description").displayText
  let jacks ← sideLines display r "jacks"
  let props ← sideLines display r "props"
  return Lines.ofText display name ++ Lines.ofText display description ++ jacks ++ props

def runLines (r : ServiceResult) : Except Failure Lines := do
  let action ← ((r.field? "action").getD (.str "")).pieceText
  let result ← ((r.field? "result").getD .null).resultText
  return headerLines display r ++ Lines.ofText display ("  action: " ++ action) ++
    Lines.ofText display result

/-- What failed, the error tree if there is one, and in detail the code. -/
def errorLines (verbose : Bool) (r : ServiceResult) : Except Failure Lines :=
  match r.error? with
  | none => .ok (Lines.ofText display ("ERROR: " ++ r.op ++ " — Unknown error"))
  | some e => do
    let tree ← match e.detail.lookup "errors" with
      | some errors => errors.ifWritable ((Tree.errorTree "errors" errors).lines display)
      | none => pure []
    let code := if verbose && !e.detail.isEmpty then Lines.ofText display ("  code: " ++ e.code)
      else []
    return Lines.ofText display ("ERROR: " ++ r.op ++ " — " ++ e.message) ++ tree ++ code

/-- The lines of a result in a display. -/
def lines (verbose : Bool) (r : ServiceResult) : Except Failure Lines :=
  if !r.ok then errorLines display verbose r
  else if r.op = "list_actions" then listLines display r
  else if r.op = "describe_action" then describeLines display r
  else if r.op = "run_action" then runLines display r
  else genericLines display r

/-- The width of a display that is not told one, or told zero. -/
def defaultWidth : Nat := 120

/-- The cells of a display. A negative width leaves no room at all. -/
def displayWidth (width? : Option Int) : Nat :=
  match width? with
  | none => defaultWidth
  | some w => if w = 0 then defaultWidth else w.toNat

/-- The display of a result; line feeds at its end are dropped. -/
def render (verbose : Bool) (width? : Option Int) (r : ServiceResult) : Except Failure String := do
  let ls ← lines (displayWidth width?) verbose r
  return String.ofList (dropTrailing (· = '\n') ls.join.toList)

/-- The minimum: names for a list, the bare result for a run. -/
def quietText (r : ServiceResult) : Except Failure String :=
  if !r.ok then
    .ok ("ERROR: " ++ r.op ++ " — " ++ (r.error?.map (·.message)).getD "Unknown error")
  else if r.op = "list_actions" then do
    let items ← ((r.field? "items").getD (.list [])).iterate
    let names ← items.mapM (·.subscript "name")
    return "\n".intercalate (← Value.texts names)
  else if r.op = "run_action" then ((r.field? "result").getD .null).resultText
  else .ok ("OK: " ++ r.op)

/-- The document of an error, if there is one. -/
def reportError : Option ServiceError → Except Failure Json.Document
  | none => .ok .null
  | some e => (Value.reportTable e.detail).map fun detail =>
    .object [("code", .text e.code), ("message", .text e.message), ("detail", detail)]

/-- The document of metadata, if there are any. -/
def reportMetadata : Option (List (String × Value)) → Except Failure Json.Document
  | none => .ok .null
  | some fields => Value.reportTable fields

/-- The document of the whole result. What its fields hold beside values is no level of these. -/
def report (r : ServiceResult) : Except Failure Json.Document := do
  let data ← Value.reportTable r.data
  let error ← reportError r.error?
  let metadata ← reportMetadata r.metadata?
  return .object
    [("ok", .bool r.ok), ("op", .text r.op), ("data", data),
     ("warnings", .array (r.warnings.map .text)), ("error", error), ("meta", metadata)]

/-- The whole result as JSON. -/
def reportText (r : ServiceResult) : Except Failure String :=
  r.report.map (Json.Document.render Json.Style.report)

/-- The output of a result. -/
def format (s : OutputSettings) (r : ServiceResult) : Except Failure String :=
  if s.json then r.reportText
  else if s.quiet then r.quietText
  else r.render s.verbose s.width?

end ServiceResult
end CheckedActions
