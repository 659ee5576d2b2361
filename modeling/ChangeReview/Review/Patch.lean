import ChangeReview.Change.Basic

/-!
# Patches

What a review has to know of a change to a file: where the file is, and the numbers of the lines
that were added to it. A patch may come with a count of additions of its own; one that does not
counts its added lines.
-/

namespace ChangeReview

/-- The added lines of a file, by number. -/
structure Patch where
  path : Path
  lines : List Int
  declared : Option Int
  deriving DecidableEq, Repr

namespace Patch

/-- The number of additions: the one that came with the patch, or else the count of its lines. -/
def additions (p : Patch) : Int := p.declared.getD p.lines.length

/-- The patch of a changed file. -/
def ofChangedFile (f : ChangedFile) : Patch := ⟨f.path, f.added.map fun l => (l.number : Int), none⟩

/-- The patch with one more added line. -/
def addLine (p : Patch) (n : Int) : Patch := { p with lines := p.lines ++ [n] }

end Patch

end ChangeReview
