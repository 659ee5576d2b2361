import ChangeReview.Change.Basic
import ChangeReview.Text.Blank

/-!
# Lines between hunks

Outside hunks a diff is free text in which some lines mean something. `HeaderLine.ofText` says what
a line means, taking the first of the meanings that its shape allows; the surroundings play no part.

A name ends at a tab or at the end of the line. Where two names stand in one line with a space
between them, and spaces may be part of the names, the cut is made at the last space that leaves
two names (`lastCut`); where a name is followed by words, the name is as short as it can be
(`shortest`).
-/

namespace ChangeReview

/-- What a line between hunks means. -/
inductive HeaderLine where
  /-- A file section starts, with the names of both sides. -/
  | file (source target : String)
  /-- The file is a new one. -/
  | newFile
  /-- The file is deleted. -/
  | deletedFile
  /-- The name of the source side, perhaps with a time stamp. -/
  | sourceName (name : String) (stamp : Option String)
  /-- The name of the target side, perhaps with a time stamp. -/
  | targetName (name : String) (stamp : Option String)
  /-- A hunk starts; it holds no lines yet. -/
  | hunk (h : Hunk)
  /-- The line before lacks its line end. -/
  | noLineEnd
  /-- An empty line. -/
  | empty
  /-- Two binary files differ. -/
  | binary (source target : String)
  /-- The change to a binary file follows, in a form of its own. -/
  | binaryPatch
  /-- Nothing in particular. -/
  | other
  deriving DecidableEq, Repr

namespace HeaderLine

/-- Whether a character can be part of a name. -/
def inName (c : Char) : Bool := c != '\t' && c != '\n'

/-- Whether a character is part of the line proper. -/
def inLine (c : Char) : Bool := c != '\n'

/-- Cuts a text at the last space at which `ok` accepts the two parts; `left` is what stands before
the text, reversed. -/
def lastCutAfter {α : Type} (ok : List Char → List Char → Option α) :
    List Char → List Char → Option α
  | _, [] => none
  | left, c :: rest =>
    (lastCutAfter ok (c :: left) rest).or (if c = ' ' then ok left.reverse rest else none)

/-- Cuts a text at the last space at which `ok` accepts the two parts. -/
def lastCut {α : Type} (ok : List Char → List Char → Option α) (cs : List Char) : Option α :=
  lastCutAfter ok [] cs

/-- Whether a text is a name marked with the letter of its side, behind a quote or not. -/
def isSide (letter : Char) : List Char → Bool
  | '"' :: c :: '/' :: _ :: _ => c == letter
  | c :: '/' :: _ :: _ => c == letter
  | _ => false

/-- Whether a text ends in an address: a scheme mark with a name behind it. -/
def endsInAddress : List Char → Bool
  | [] => false
  | c :: rest =>
    (match "://".toList.isPrefixOf? (c :: rest) with
      | some (d :: more) => (d :: more).all inName
      | _ => false) || endsInAddress rest

/-- The text up to the end of the name behind the last scheme mark that has one. -/
def lastAddress? : List Char → Option (List Char)
  | [] => none
  | c :: rest =>
    ((lastAddress? rest).map (c :: ·)).or
      (match "://".toList.isPrefixOf? (c :: rest) with
        | some (d :: more) =>
          if inName d then some ("://".toList ++ (d :: more).takeWhile inName) else none
        | _ => none)

/-- The two names that a line starting a file section gives: names marked by side, or else
addresses, or else any two. -/
def twoNames? (cs : List Char) : Option (List Char × List Char) :=
  let names := cs.takeWhile inName
  (lastCut (fun l r => if isSide 'a' l && isSide 'b' r then some (l, r) else none) names).or
    ((lastCut (fun l r => if endsInAddress l then (lastAddress? r).map (l, ·) else none)
        (cs.takeWhile inLine)).or
      (lastCut (fun l r => if l.isEmpty || r.isEmpty then none else some (l, r)) names))

/-- Whether a text is a file mode at the end of its line. -/
def isMode (cs : List Char) : Bool :=
  let (ds, rest) := cs.span Text.isDigit
  !ds.isEmpty && (rest == [] || rest == ['\n'])

/-- A name, and the time stamp behind a tab if there is one. -/
def nameAndStamp (cs : List Char) : String × Option String :=
  let (name, rest) := cs.span inName
  let stamp :=
    match rest with
    | '\t' :: more =>
      match more.takeWhile inLine with
      | [] => none
      | s => some (String.ofList s)
    | _ => none
  (String.ofList name, stamp)

/-- A number, and the text behind it. -/
def number? (cs : List Char) : Option (Nat × List Char) :=
  match cs.span Text.isDigit with
  | ([], _) => none
  | (ds, rest) => some (Text.value ds, rest)

/-- The start of a stretch of lines and its length, which is one where it is left out. -/
def range? (cs : List Char) : Option (Nat × Nat × List Char) := do
  let (start, rest) ← number? cs
  match rest with
  | ',' :: more =>
    let (length, rest) ← number? more
    return (start, length, rest)
  | _ => return (start, 1, rest)

/-- A hunk header. -/
def hunk? (cs : List Char) : Option Hunk := do
  let cs ← "@@ -".toList.isPrefixOf? cs
  let (sourceStart, sourceLength, cs) ← range? cs
  let cs ← " +".toList.isPrefixOf? cs
  let (targetStart, targetLength, cs) ← range? cs
  let cs ← " @@".toList.isPrefixOf? cs
  let heading := (([' '].isPrefixOf? cs).getD cs).takeWhile inLine
  return ⟨sourceStart, sourceLength, targetStart, targetLength, String.ofList heading, #[]⟩

/-- How many digits the first number of a hunk header has that is too long to be read, if the line
is a hunk header with such a number. -/
def long? (line : List Char) : Option Nat :=
  if (hunk? line).isSome then Text.longRun? 0 ((line.drop 4).takeWhile (· != '@')) else none

/-- The shortest beginning of a text, without a tab and not empty, behind which `next` accepts the
rest. -/
def shortest {α : Type} (next : List Char → Option α) : List Char → Option (List Char × α)
  | [] => none
  | c :: rest =>
    if c = '\t' then none
    else
      ((next rest).map ([c], ·)).or ((shortest next rest).map fun (cs, a) => (c :: cs, a))

/-- Whether a character can be part of a time stamp between words. -/
def inStamp (c : Char) : Bool :=
  Text.isBlank c || ('0' ≤ c && c ≤ '9') || c == ':' || c == '+' || c == '-'

/-- The text behind a time stamp, from the space before the next word on; the text itself where no
stamp stands in front of it. -/
def behindStamp (cs : List Char) : List Char :=
  match cs with
  | '\t' :: rest =>
    let (stamp, more) := rest.span inStamp
    if 2 ≤ stamp.length ∧ stamp.getLast? = some ' ' then ' ' :: more else cs
  | _ => cs

/-- Whether a text goes on by saying that files are not the same. -/
def differs (cs : List Char) : Option Unit :=
  if " differ".toList.isPrefixOf cs || " has changed".toList.isPrefixOf cs then some () else none

/-- The name of a second binary file, if there is one, and that the files are not the same. -/
def secondFile? (cs : List Char) : Option (Option (List Char)) :=
  (((" and ".toList.isPrefixOf? cs).bind (shortest fun rest => differs (behindStamp rest))).map
    fun (name, _) => some name).or ((differs cs).map fun _ => none)

/-- The names of two binary files that are not the same; one that stands alone is both. -/
def binary? (cs : List Char) : Option (List Char × List Char) := do
  let cs ← ("Binary files ".toList.isPrefixOf? cs).or ("Binary file ".toList.isPrefixOf? cs)
  let (source, target) ← shortest (fun rest => secondFile? (behindStamp rest)) cs
  return (source, target.getD source)

/-- What a line means, line end included. -/
def ofText (line : List Char) : HeaderLine :=
  match ("diff --git ".toList.isPrefixOf? line).bind twoNames? with
  | some (source, target) => .file (String.ofList source) (String.ofList target)
  | none =>
  if ("new file mode ".toList.isPrefixOf? line).any isMode then .newFile
  else if ("deleted file mode ".toList.isPrefixOf? line).any isMode then .deletedFile
  else
  match "--- ".toList.isPrefixOf? line with
  | some rest => let (name, stamp) := nameAndStamp rest; .sourceName name stamp
  | none =>
  match "+++ ".toList.isPrefixOf? line with
  | some rest => let (name, stamp) := nameAndStamp rest; .targetName name stamp
  | none =>
  match hunk? line with
  | some h => .hunk h
  | none =>
  if "\\ No newline at end of file".toList.isPrefixOf line then .noLineEnd
  else if line = ['\n'] then .empty
  else
  match binary? line with
  | some (source, target) => .binary (String.ofList source) (String.ofList target)
  | none => if line = "GIT binary patch\n".toList then .binaryPatch else .other

end HeaderLine

end ChangeReview
