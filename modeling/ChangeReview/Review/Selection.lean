import ChangeReview.Glob
import ChangeReview.Review.Patch

/-!
# Selecting patches

A review looks at the patches that add something to a source file, unless a pattern excludes the
file. A pattern is tried on the path as it is given, and, where the path lies in the current
directory, on the path from there.
-/

namespace ChangeReview

/-- The ending of the files that are reviewed. -/
def sourceSuffix : String := ".py"

/-- The names that a path goes by where `cwd` is the current directory. -/
def Path.aliases (p cwd : Path) : List String :=
  p.text ::
    (if p.isAbsolute then ((p.relativeTo? cwd).map Path.text).toList else [])

/-- Whether one of the patterns matches one of the names of a path. -/
def Path.isExcluded (p cwd : Path) (excludes : List String) : Bool :=
  excludes.any fun pattern => (p.aliases cwd).any (Glob.isMatch pattern)

/-- Whether a review looks at files of this path. -/
def Path.isEligible (p cwd : Path) (excludes : List String) : Bool :=
  p.suffix == sourceSuffix && !p.isExcluded cwd excludes

/-- Whether a review looks at this patch. -/
def Patch.isSelected (p : Patch) (cwd : Path) (excludes : List String) : Bool :=
  0 < p.additions && p.path.isEligible cwd excludes

end ChangeReview
