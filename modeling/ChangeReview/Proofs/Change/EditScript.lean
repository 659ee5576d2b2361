import ChangeReview.Change.Basic

/-!
# Edit scripts

What happens to the lines of a file, told apart from any notation for it.
An edit script runs through the old file and the new one at once: each of
its edits keeps a line, deletes one or inserts one, so the old file is
what is kept or deleted and the new file what is kept or inserted. The
inserted lines, each with its place in the new file, are what a review is
after (`Edit.inserted`).

A diff does not show all of a script. It shows excerpts, each around some
change, and leaves out kept lines between them; nothing but kept lines may
be left out. `FileEdit` is a script cut in this way, so that every way of
cutting a script is a value of it, and `FileEdit.script` puts the pieces
together again.
-/

namespace ChangeReview

/-- The text of a line: any characters, without a line feed. -/
structure LineText where
  chars : List Char
  unbroken : '\n' ∉ chars
  deriving DecidableEq, Repr

/-- What an edit does with its line. -/
inductive Edit.Action where
  | keep
  | delete
  | insert
  deriving DecidableEq, Repr

/-- Whether the line of an edit stands in the old file. -/
def Edit.Action.inOld : Edit.Action → Bool
  | .keep | .delete => true
  | .insert => false

/-- Whether the line of an edit stands in the new file. -/
def Edit.Action.inNew : Edit.Action → Bool
  | .keep | .insert => true
  | .delete => false

/-- One line of an edit script. The last line of a file may lack its line
end; which lines are last is left to whoever makes the script. -/
structure Edit where
  action : Edit.Action
  text : LineText
  noLineEnd : Bool
  deriving DecidableEq, Repr

namespace Edit

/-- The edit that keeps a line. -/
def kept (text : LineText) : Edit := ⟨.keep, text, false⟩

/-- How many lines of the old file a script runs through. -/
def oldLength (es : List Edit) : Nat := es.countP (·.action.inOld)

/-- How many lines of the new file a script runs through. -/
def newLength (es : List Edit) : Nat := es.countP (·.action.inNew)

/-- **The inserted lines of a script**: the lines of the new file are
counted from `first`, and those that were inserted are kept with their
numbers. -/
def insertedFrom (first : Nat) (es : List Edit) : List AddedLine :=
  ((es.filter (·.action.inNew)).zipIdx first).filterMap fun (e, n) =>
    if e.action = .insert then some ⟨n, String.ofList e.text.chars⟩ else none

/-- The inserted lines of a whole script, with their numbers in the new
file. -/
def inserted (es : List Edit) : List AddedLine := insertedFrom 1 es

@[simp] theorem oldLength_append (es es' : List Edit) :
    oldLength (es ++ es') = oldLength es + oldLength es' :=
  List.countP_append

@[simp] theorem newLength_append (es es' : List Edit) :
    newLength (es ++ es') = newLength es + newLength es' :=
  List.countP_append

@[simp] theorem newLength_map_kept (ts : List LineText) :
    newLength (ts.map kept) = ts.length := by
  rw [newLength, List.countP_map]
  exact List.countP_eq_length.2 fun _ _ => rfl

/-- **Scripts one after the other insert what either inserts**, the second
counting on from where the first ends in the new file. -/
theorem insertedFrom_append (first : Nat) (es es' : List Edit) :
    insertedFrom first (es ++ es')
      = insertedFrom first es ++ insertedFrom (first + newLength es) es' := by
  unfold insertedFrom newLength
  rw [List.filter_append, List.zipIdx_append, List.filterMap_append, List.countP_eq_length_filter,
    Nat.add_comm first]

/-- Kept lines insert nothing. -/
@[simp] theorem insertedFrom_map_kept (first : Nat) (ts : List LineText) :
    insertedFrom first (ts.map kept) = [] := by
  rw [insertedFrom, List.filterMap_eq_nil_iff]
  intro ⟨e, n⟩ h
  have hmem : e ∈ ts.map kept := (List.mem_filter.1 (List.fst_mem_of_mem_zipIdx h)).1
  obtain ⟨t, -, rfl⟩ := List.mem_map.1 hmem
  rfl

end Edit

/-- A stretch of a script that a hunk shows, with the kept lines behind it
that no hunk shows. The rest is up to the writer: what stands in the hunk's
header, and whether a length of one is left out there on either side. -/
structure Excerpt where
  edits : List Edit
  changes : ∃ e ∈ edits, e.action ≠ .keep
  skipped : List LineText
  heading : LineText
  briefOld : Bool
  briefNew : Bool

/-- The part of the script that an excerpt covers. -/
def Excerpt.script (x : Excerpt) : List Edit := x.edits ++ x.skipped.map Edit.kept

/-- **A script cut into excerpts**: the kept lines ahead of the first
excerpt, and the excerpts. -/
structure CutScript where
  lead : List LineText
  excerpts : List Excerpt
  shown : excerpts ≠ []

/-- The script that was cut. -/
def CutScript.script (s : CutScript) : List Edit :=
  s.lead.map Edit.kept ++ s.excerpts.flatMap Excerpt.script

end ChangeReview
