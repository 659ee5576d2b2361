import ChangeReview.Review.Message
import ChangeReview.Review.Patch

/-!
# Placing a diagnostic

A diagnostic is reported on the last added line that its range covers. A checker counts lines from
zero and a change from one. An added line that is listed twice leaves open which of the two is
meant, so a placement on such a line is refused; lines that are listed twice elsewhere do no harm.
-/

namespace ChangeReview

/-- An added line that is listed more than once. -/
structure DuplicateLine where
  line : Int
  path : Path
  times : Nat
  deriving DecidableEq, Repr

/-- The wording for a line that is listed more than once. Where the number of the line is too long
to be written, it is this that is worded. -/
def DuplicateLine.message (e : DuplicateLine) : String :=
  match Text.decimal? e.line with
  | some digits =>
    let line := String.ofList digits
    s!"Added line {line} of {e.path} appears {e.times} times in the diff"
  | none => Text.limitMessage none

/-- The added lines of a file with numbers from `first` to `last`. -/
def Patch.linesWithin (patches : List Patch) (file : Path) (first last : Int) : List Int :=
  (patches.filter fun p => p.path = file).flatMap fun p =>
    p.lines.filter fun n => first ≤ n && n ≤ last

/-- The line of a file to report a range on, where the range covers an added line. -/
def Patch.lastWithin (patches : List Patch) (file : Path) (first last : Int) :
    Except DuplicateLine (Option Int) :=
  let covered := linesWithin patches file first last
  match covered.max? with
  | none => .ok none
  | some line =>
    if 1 < covered.count line then .error ⟨line, file, covered.count line⟩ else .ok (some line)

/-- The file of a diagnostic and the line of it to report the diagnostic on, where its range covers
an added line. -/
def Diagnostic.place (patches : List Patch) (d : Diagnostic) :
    Except DuplicateLine (Option (Path × Int)) :=
  match d.path?, d.startLine, d.endLine with
  | some file, some first, some last =>
    (Patch.lastWithin patches file (first + 1) (last + 1)).map fun line => line.map (file, ·)
  | _, _, _ => .ok none

/-- The message that a diagnostic gives, where its range covers an added line. -/
def Diagnostic.message? (patches : List Patch) (runner : String) (d : Diagnostic) :
    Except DuplicateLine (Option Message) :=
  (d.place patches).map fun found => found.map fun (file, line) => .ofDiagnostic runner file line d

/-- The messages that diagnostics give, in order. -/
def Diagnostic.messages (patches : List Patch) (runner : String) :
    List Diagnostic → Except DuplicateLine (List Message)
  | [] => .ok []
  | d :: ds => do
    let m ← d.message? patches runner
    let ms ← messages patches runner ds
    return m.toList ++ ms

end ChangeReview
