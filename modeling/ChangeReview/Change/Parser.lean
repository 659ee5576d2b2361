import ChangeReview.Change.HeaderLine
import ChangeReview.Text.Lines

/-!
# Reading a change

A diff is read line by line by one step function (`Reader.step`), folded over the lines. Between
hunks a line is taken for what its shape says; inside a hunk it is taken for a line of the hunk,
whatever it looks like, until the hunk has as many lines on either side as its header says. A hunk
joins its file only then, so nothing half-read is ever part of the result.

The numbers of a hunk header may have any number of digits as far as the form of a diff goes
(`ChangedFile.parse`). A review does not read the longest of them, and refuses such a diff where it
meets one (`ChangedFile.read`).

The state says where the reading stands. In front of the hunks of a file the lines without a
meaning are kept, either for a file that is yet to be named (`preamble`) or for the file they are
about (`header`); behind the names of the two sides nothing is kept any more (`body`).
-/

namespace ChangeReview

/-- What can be wrong with a diff, with the line where there is one to show. -/
inductive ChangeError where
  | unexpectedNewFile (line : String)
  | unexpectedDeletedFile (line : String)
  | targetWithoutSource (line : String)
  | unexpectedHunk (line : String)
  | unexpectedMarker (line : String)
  | markerOutsideHunk
  | unexpectedBinaryPatch (line : String)
  | notInHunk (line : String)
  | hunkTooLong
  | hunkTooShort
  /-- A number in a hunk header has so many digits that it is not read. -/
  | longNumber (digits : Nat)
  deriving DecidableEq, Repr

/-- The wording of what is wrong. -/
def ChangeError.message : ChangeError → String
  | .unexpectedNewFile line => s!"Unexpected new file found: {line}"
  | .unexpectedDeletedFile line => s!"Unexpected deleted file found: {line}"
  | .targetWithoutSource line => s!"Target without source: {line}"
  | .unexpectedHunk line => s!"Unexpected hunk found: {line}"
  | .unexpectedMarker line => s!"Unexpected marker: {line}"
  | .markerOutsideHunk => "Unexpected marker: No newline at end of file"
  | .unexpectedBinaryPatch line => s!"Unexpected binary patch marker: {line}"
  | .notInHunk line => s!"Hunk diff line expected: {line}"
  | .hunkTooLong => "Hunk is longer than expected"
  | .hunkTooShort => "Hunk is shorter than expected"
  | .longNumber digits => Text.limitMessage (some digits)

namespace Reader

/-- Where the reading of a diff stands. -/
inductive Place where
  /-- Behind a binary file, or before anything at all. -/
  | outside
  /-- Among lines that no file has claimed yet. -/
  | preamble (info : Array String)
  /-- Among the lines at the top of a file section. -/
  | header (file : FileChange)
  /-- Behind the names of a file, or behind one of its hunks. -/
  | body (file : FileChange)
  /-- In a hunk of a file that still lacks so many lines on the source and the target side. -/
  | hunk (file : FileChange) (current : Hunk) (source target : Nat)

/-- The state of the reading: the changes that are complete, the source name and stamp that were
seen last, and the place. -/
structure State where
  done : Array FileChange
  source : Option String
  stamp : Option String
  place : Place

/-- The state before the first line. -/
def State.init : State := ⟨#[], none, none, .outside⟩

/-- The file that is being read. -/
def Place.file? : Place → Option FileChange
  | .outside | .preamble _ => none
  | .header file | .body file | .hunk file _ _ _ => some file

/-- The changes complete once the file that is being read is done with. -/
def State.closed (s : State) : Array FileChange :=
  match s.place.file? with
  | some file => s.done.push file
  | none => s.done

/-- The state with nothing open any more, to go on at `place`. -/
def State.leave (s : State) (place : Place) : State := { s with done := s.closed, place }

/-- The lines that were kept so far for a file that is yet to be named. -/
def Place.kept : Place → Array String
  | .preamble info => info
  | _ => #[]

/-- A line without a meaning: it is kept for the file it may be about. -/
def State.keep (s : State) (line : String) : State :=
  match s.place with
  | .preamble info => { s with place := .preamble (info.push line) }
  | .header file => { s with place := .header (file.pushInfo line) }
  | _ => s.leave (.preamble #[line])

/-- A line of a hunk: its mark and its text. A line may lack its mark when it is empty, and is then
context; what stands behind a carriage return at its start is dropped. -/
def bodyLine? : List Char → Option (Mark × List Char)
  | ' ' :: rest => some (.context, rest)
  | '+' :: rest => some (.added, rest)
  | '-' :: rest => some (.removed, rest)
  | '\\' :: rest => some (.noLineEnd, rest)
  | '\n' :: rest => some (.context, '\n' :: (rest.take 1).takeWhile fun c => c == '\n' || c == '\r')
  | '\r' :: rest => some (.context, '\r' :: (rest.take 1).takeWhile fun c => c == '\n' || c == '\r')
  | _ => none

/-- A line inside a hunk that still lacks so many lines on either side. -/
def State.readBody (s : State) (file : FileChange) (h : Hunk) (source target : Nat)
    (line : List Char) : Except ChangeError State :=
  match bodyLine? line with
  | none => .error (.notInHunk (String.ofList line))
  | some (mark, text) =>
    if mark.inSource && source == 0 || mark.inTarget && target == 0 then .error .hunkTooLong
    else
      let source := if mark.inSource then source - 1 else source
      let target := if mark.inTarget then target - 1 else target
      let h := h.push ⟨mark, String.ofList text⟩
      .ok { s with
        place :=
          if source = 0 ∧ target = 0 then .body (file.pushHunk h) else .hunk file h source target }

/-- The file a line at the top of its section is about, changed as the line says. -/
def State.amend (s : State) (line : String) (error : String → ChangeError)
    (change : FileChange → FileChange) : Except ChangeError State :=
  match s.place with
  | .header file => .ok { s with place := .header ((change file).pushInfo line) }
  | _ => .error (error line)

/-- The name of the target side: it has to be the one the file is known by, or there has to be a
source name to make up a file with. -/
def State.readTarget (s : State) (line name : String) (stamp : Option String) :
    Except ChangeError State :=
  let stamped (file : FileChange) : FileChange := { file with targetStamp := stamp }
  match s.place with
  | .header file =>
    if file.target = name then .ok { s with place := .header (stamped file) }
    else .error (.targetWithoutSource line)
  | .body file =>
    if file.target = name then .ok { s with place := .body (stamped file) }
    else .error (.targetWithoutSource line)
  | place =>
    match s.source with
    | none => .error (.targetWithoutSource line)
    | some source =>
      .ok ⟨s.closed, none, none, .body ⟨place.kept, source, s.stamp, name, stamp, false, #[]⟩⟩

/-- A line at the end of the last hunk of the file, where there is one. -/
def State.pushLine? (s : State) (l : BodyLine) : Option State :=
  match s.place with
  | .body file => (file.pushLine? l).map fun file => { s with place := .body file }
  | _ => none

/-- A line that says that two binary files differ. The file that it closes a section of keeps its
names. -/
def State.readBinary (s : State) (line source target : String) : State :=
  let file :=
    match s.place with
    | .header file => file
    | place => .ofNames place.kept source target
  -- A file whose hunks were read is complete; one at its top is the binary file itself.
  let done := match s.place with
    | .body file => s.done.push file
    | _ => s.done
  { s with
    done := done.push { file.pushInfo line with binary := true },
    source := some source,
    place := .outside }

/-- A line between hunks, with its meaning. -/
def State.readHeader (s : State) (text : String) : HeaderLine → Except ChangeError State
  | .file source target =>
    .ok { s.leave (.header (.ofNames #[text] source target)) with source := some source }
  | .newFile =>
    s.amend text .unexpectedNewFile fun file => { file with source := FileChange.nowhere }
  | .deletedFile =>
    s.amend text .unexpectedDeletedFile fun file => { file with target := FileChange.nowhere }
  | .sourceName name stamp =>
    let s := { s with source := some name, stamp }
    match s.place with
    | .header file => .ok { s with place := .header { file with sourceStamp := stamp } }
    | .body _ => .ok (s.leave .outside)
    | _ => .ok s
  | .targetName name stamp => s.readTarget text name stamp
  | .hunk h =>
    match s.place.file? with
    | none => .error (.unexpectedHunk text)
    | some file => .ok { s with place := .hunk file h h.sourceLength h.targetLength }
  | .noLineEnd =>
    match s.place.file? with
    | none => .error (.unexpectedMarker text)
    | some _ =>
      match s.pushLine? ⟨.noLineEnd, " No newline at end of file\n"⟩ with
      | some s => .ok s
      | none => .error .markerOutsideHunk
  | .empty => .ok ((s.pushLine? ⟨.trailing, "\n"⟩).getD (s.keep text))
  | .binary source target => .ok (s.readBinary text source target)
  | .binaryPatch =>
    match s.place with
    | .header file =>
      .ok { s with done := s.done.push { file with binary := true }, place := .outside }
    | _ => .error (.unexpectedBinaryPatch text)
  | .other => .ok (s.keep text)

/-- One line of a diff. -/
def step (s : State) (line : List Char) : Except ChangeError State :=
  match s.place with
  | .hunk file h source target => s.readBody file h source target line
  | _ => s.readHeader (String.ofList line) (HeaderLine.ofText line)

/-- How many digits a number of the line has that would have to be read here but is too long. -/
def State.long? (s : State) (line : List Char) : Option Nat :=
  match s.place with
  | .header _ | .body _ => HeaderLine.long? line
  | _ => none

/-- One line of a diff, unless it has a number that is too long. -/
def boundedStep (s : State) (line : List Char) : Except ChangeError State :=
  match s.long? line with
  | some digits => .error (.longNumber digits)
  | none => step s line

/-- The changes read when the text is at its end. A hunk that was begun has to be complete. -/
def finish (s : State) : Except ChangeError (Array FileChange) :=
  match s.place with
  | .hunk file h source target =>
    if source = 0 ∧ target = 0 then .ok (s.done.push (file.pushHunk h)) else .error .hunkTooShort
  | _ => .ok s.closed

end Reader

/-- The changes that a diff tells, file by file. -/
def FileChange.parse (diff : String) : Except ChangeError (Array FileChange) := do
  Reader.finish (← (Text.lines diff.toList).foldlM Reader.step Reader.State.init)

/-- The changes that a diff tells in which no number is too long. -/
def FileChange.read (diff : String) : Except ChangeError (Array FileChange) := do
  Reader.finish (← (Text.lines diff.toList).foldlM Reader.boundedStep Reader.State.init)

/-- What a review wants to know of the changes that a diff tells. -/
def ChangedFile.parse (diff : String) (root : Option Path) :
    Except ChangeError (List ChangedFile) := do
  return (← FileChange.parse diff).toList.map (·.summary root)

/-- What a review gets to know of the changes that a diff tells: it is refused where a number is too
long. -/
def ChangedFile.read (diff : String) (root : Option Path) :
    Except ChangeError (List ChangedFile) := do
  return (← FileChange.read diff).toList.map (·.summary root)

end ChangeReview
