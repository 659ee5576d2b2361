import ChangeReview.Path
import ChangeReview.Text.Digit

/-!
# Changes

A change to a file, as a unified diff tells it: the two names of the file, the lines that were found
ahead of it, and its hunks. A hunk covers a stretch of lines on either side and lists them, each
with a mark that says to which side it belongs. The numbers of the added lines follow from the marks
and from where the hunk starts on the target side (`Hunk.added`), and everything a review wants to
know of the file is read off its change (`FileChange.summary`).
-/

namespace ChangeReview

/-- What a line of a hunk says of the two sides. -/
inductive Mark where
  /-- The line stands on both sides. -/
  | context
  /-- The line stands on the target side only. -/
  | added
  /-- The line stands on the source side only. -/
  | removed
  /-- Not a line of either side but a remark on the line before: it lacks its line end. -/
  | noLineEnd
  /-- An empty line behind the hunk, which belongs to neither side. -/
  | trailing
  deriving DecidableEq, Repr

/-- The characters a mark is written with. -/
def Mark.text : Mark → List Char
  | .context => [' ']
  | .added => ['+']
  | .removed => ['-']
  | .noLineEnd => ['\\']
  | .trailing => []

/-- Whether a line with this mark stands on the source side. -/
def Mark.inSource : Mark → Bool
  | .context | .removed => true
  | _ => false

/-- Whether a line with this mark stands on the target side. -/
def Mark.inTarget : Mark → Bool
  | .context | .added => true
  | _ => false

/-- A line of a hunk: its mark, and its text with the line end. -/
structure BodyLine where
  mark : Mark
  text : String
  deriving DecidableEq, Repr

/-- A line that a change adds, with its number on the target side. -/
structure AddedLine where
  number : Nat
  content : String
  deriving DecidableEq, Repr

/-- A stretch of lines on the source side, the stretch that takes its place on the target side, and
the lines of both. -/
structure Hunk where
  sourceStart : Nat
  sourceLength : Nat
  targetStart : Nat
  targetLength : Nat
  heading : String
  lines : Array BodyLine
  deriving DecidableEq, Repr

namespace Hunk

/-- The added lines among `ls`, when the first line on the target side has number `n`. -/
def addedFrom (n : Nat) : List BodyLine → List AddedLine
  | [] => []
  | l :: ls =>
    let next := if l.mark.inTarget then n + 1 else n
    if l.mark = .added then
      ⟨n, String.ofList (l.text.toList.reverse.dropWhile (· == '\n')).reverse⟩ :: addedFrom next ls
    else addedFrom next ls

/-- The lines that a hunk adds. -/
def added (h : Hunk) : List AddedLine := addedFrom h.targetStart h.lines.toList

/-- A stretch of lines as a header gives it. -/
def range (start length : Nat) : List Char :=
  Text.digits start ++ ',' :: Text.digits length

/-- The header line of a hunk. -/
def header (h : Hunk) : List Char :=
  "@@ -".toList ++ range h.sourceStart h.sourceLength ++ " +".toList ++
    range h.targetStart h.targetLength ++ " @@".toList ++
    (if h.heading = "" then [] else ' ' :: h.heading.toList) ++ ['\n']

/-- A hunk as a diff shows it, lengths always written. -/
def text (h : Hunk) : List Char :=
  h.header ++ h.lines.toList.flatMap fun l => l.mark.text ++ l.text.toList

/-- The hunk with one more line at its end. -/
def push (h : Hunk) (l : BodyLine) : Hunk := { h with lines := h.lines.push l }

end Hunk

/-- A change to one file. -/
structure FileChange where
  /-- The lines found ahead of the hunks. -/
  info : Array String
  source : String
  sourceStamp : Option String
  target : String
  targetStamp : Option String
  binary : Bool
  hunks : Array Hunk
  deriving DecidableEq, Repr

/-- What a review wants to know of a change to one file. -/
structure ChangedFile where
  path : Path
  diff : String
  isNew : Bool
  isDeleted : Bool
  added : List AddedLine
  deriving DecidableEq, Repr

namespace FileChange

/-- The name that stands for no file. -/
def nowhere : String := "/dev/null"

/-- A change of which nothing but the names is known. -/
def ofNames (info : Array String) (source target : String) : FileChange :=
  ⟨info, source, none, target, none, false, #[]⟩

/-- Whether the two names are those of two files; their first two characters tell the sides apart
and do not count. -/
def isRename (f : FileChange) : Bool :=
  f.source != nowhere && f.target != nowhere && f.source.toList.drop 2 != f.target.toList.drop 2

/-- The name without the letter and the slash that mark its side. -/
def withoutSide : List Char → List Char
  | c :: '/' :: rest =>
    if c ∈ ['a', 'b', 'c', 'i', 'o', 'w', '1', '2'] then rest else c :: '/' :: rest
  | cs => cs

/-- The name without its side, which is looked for behind the opening quote when the name is between
quotes; a quote alone is such a name, and an empty one. -/
def bareName (cs : List Char) : List Char :=
  if cs.head? = some '"' ∧ cs.getLast? = some '"' then
    '"' :: withoutSide (cs.drop 1).dropLast ++ ['"']
  else withoutSide cs

/-- The name of the changed file: the one it has now, unless it is gone. -/
def name (f : FileChange) : String :=
  String.ofList (bareName (if f.source = nowhere || f.isRename then f.target else f.source).toList)

/-- Whether the file comes into being: it has no source name, or its one hunk starts from no line at
all. -/
def isNew (f : FileChange) : Bool :=
  f.source = nowhere ||
    f.hunks.size = 1 && f.hunks.all fun h => h.sourceStart = 0 && h.sourceLength = 0

/-- Whether the file ceases to be: it has no target name, or its one hunk leaves no line at all. -/
def isDeleted (f : FileChange) : Bool :=
  f.target = nowhere ||
    f.hunks.size = 1 && f.hunks.all fun h => h.targetStart = 0 && h.targetLength = 0

/-- The lines that a change adds to the file. -/
def added (f : FileChange) : List AddedLine := f.hunks.toList.flatMap Hunk.added

/-- One of the two lines that name a side. -/
def nameLine (mark : String) (name : String) (stamp : Option String) : List Char :=
  mark.toList ++ name.toList ++ (stamp.elim [] fun s => '\t' :: s.toList) ++ ['\n']

/-- The change as a diff shows it. -/
def text (f : FileChange) : String :=
  let names :=
    if f.binary || f.hunks.isEmpty then []
    else nameLine "--- " f.source f.sourceStamp ++ nameLine "+++ " f.target f.targetStamp
  String.ofList
    (f.info.toList.flatMap String.toList ++ names ++ f.hunks.toList.flatMap Hunk.text)

/-- What a review wants to know of the change, with the path taken from `root` where one is given.
-/
def summary (root : Option Path) (f : FileChange) : ChangedFile where
  path := root.elim (Path.ofString f.name) (· / Path.ofString f.name)
  diff := f.text
  isNew := f.isNew
  isDeleted := f.isDeleted
  added := f.added

/-- The change with one more line ahead of its hunks. -/
def pushInfo (f : FileChange) (line : String) : FileChange := { f with info := f.info.push line }

/-- The change with one more hunk. -/
def pushHunk (f : FileChange) (h : Hunk) : FileChange := { f with hunks := f.hunks.push h }

/-- The change with one more line at the end of its last hunk, if it has a hunk. -/
def pushLine? (f : FileChange) (l : BodyLine) : Option FileChange :=
  f.hunks.back?.map fun h => { f with hunks := f.hunks.pop.push (h.push l) }

end FileChange

end ChangeReview
