import ChangeReview.Json.Parser
import ChangeReview.Path

/-!
# Checker reports

A type checker reports on a whole project as one JSON document: an object whose member `diagnostics`
lists what was found. The document as a whole has to have this shape, but an entry of the list may
be anything. What is read from an entry is read piece by piece, each piece from its own place, and a
piece that is missing or of another kind is simply not known.

Texts are taken as the document spells them, halves of surrogate pairs included. Paths are made of
characters, so the name of a file is a path only where it holds no such half; a name that holds one
is kept as well, but no file goes by it.
-/

namespace ChangeReview

/-- The name of a file, as a report gives it. -/
inductive FileName where
  | path (p : Path)
  /-- A text that holds half of a surrogate pair. -/
  | unpaired (s : WideString)
  deriving DecidableEq, Repr

/-- The file that goes by a name. -/
def FileName.ofText (s : WideString) : FileName :=
  match s.text with
  | .ok s => .path (Path.ofString s)
  | .error _ => .unpaired s

/-- One finding of the checker: the file it is in, the first and the last line of the range it
covers, counted from zero, and what it says. -/
structure Diagnostic where
  file : Option FileName
  severity : Option WideString
  startLine : Option Int
  endLine : Option Int
  message : Option WideString
  deriving DecidableEq, Repr

/-- The path of the file, if the file has one. -/
def Diagnostic.path? (d : Diagnostic) : Option Path :=
  d.file.bind fun
    | .path p => some p
    | .unpaired _ => none

/-- What an entry of a report says. -/
def Diagnostic.ofJson (v : Json) : Diagnostic where
  file := ((v.at? ["file"]).bind Json.str?).map FileName.ofText
  severity := (v.at? ["severity"]).bind Json.str?
  startLine := (v.at? ["range", "start", "line"]).bind Json.int?
  endLine := (v.at? ["range", "end", "line"]).bind Json.int?
  message := (v.at? ["message"]).bind Json.str?

/-- What can be wrong with a report. -/
inductive ReportError where
  /-- The text is no JSON document. -/
  | malformed (e : Json.SyntaxError)
  /-- The text is beyond a limit of the reader. -/
  | limit (l : Json.Limit)
  /-- The document says something other than an object; the name of its kind is shown. -/
  | notObject (kind : String)
  /-- The object lacks the list of findings. -/
  | noDiagnostics
  deriving DecidableEq, Repr

/-- The wording of what is wrong with a report. -/
def ReportError.message : ReportError → String
  | .malformed e => e.message
  | .limit l => l.message
  | .notObject kind => s!"Expected a JSON object, got {kind}"
  | .noDiagnostics => "Checker output has no \"diagnostics\" list"

/-- The name that a kind of value goes by in messages. -/
def Json.kind : Json → String
  | .null => "NoneType"
  | .bool _ => "bool"
  | .int _ => "int"
  | .real _ => "float"
  | .str _ => "str"
  | .arr _ => "list"
  | .obj _ => "dict"

/-- The findings that a document lists. -/
def Diagnostic.ofDocument : Json → Except ReportError (List Diagnostic)
  | .obj members =>
    match Json.lookup "diagnostics" members with
    | some (.arr items) => .ok (items.map Diagnostic.ofJson)
    | _ => .error .noDiagnostics
  | v => .error (.notObject v.kind)

/-- Why a report cannot be read that is no document, as far as the reader can tell. -/
def ReportError.ofParseError : Json.ParseError → ReportError
  | .malformed e => .malformed e
  | .limit l => .limit l

/-- The findings that a report lists, read with room for so many arrays and objects one in the
other. -/
def Diagnostic.parse (room : Nat) (report : String) : Except ReportError (List Diagnostic) :=
  match Json.parse room report with
  | .error e => .error (.ofParseError e)
  | .ok v => Diagnostic.ofDocument v

end ChangeReview
