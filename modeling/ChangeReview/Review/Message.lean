import ChangeReview.Json.Printer
import ChangeReview.Report

/-!
# Review messages

A message puts what the checker says on a line of the new file. It is shown to people as a line of
text and to programs as a JSON object.
-/

namespace ChangeReview

/-- A message on a line of a file, and the runner it comes from. -/
structure Message where
  path : String
  line : Int
  level : Option WideString
  text : Option WideString
  runner : String
  deriving DecidableEq, Repr

namespace Message

/-- The message a diagnostic gives on a line of its file. -/
def ofDiagnostic (runner : String) (file : Path) (line : Int) (d : Diagnostic) : Message :=
  ⟨file.text, line, d.severity, d.message, runner⟩

/-- The level as it is shown: one that is missing or empty is unknown. -/
def shownLevel (m : Message) : WideString :=
  match m.level with
  | none => "unknown"
  | some level => if level = "" then "unknown" else level

/-- The message as a line of text, unless the number of its line is too long to be written. -/
def render (m : Message) : Option WideString :=
  (Text.decimal? m.line).map fun digits =>
    m.path ++ ":" ++ (String.ofList digits : WideString) ++ ": " ++ m.shownLevel ++ ": " ++
      m.text.getD ""

/-- The message as a JSON object; no commit is ever known. -/
def toJson (m : Message) : Json :=
  let text (s : Option WideString) : Json := s.elim .null .str
  .obj [("path", .str m.path), ("line", .int m.line), ("level", text m.level),
    ("msg", text m.text), ("commit_sha", .null), ("runner", .str m.runner)]

end Message

end ChangeReview
