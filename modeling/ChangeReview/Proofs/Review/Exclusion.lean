import ChangeReview.Proofs.Glob.Matching
import ChangeReview.Proofs.Path
import ChangeReview.Review.Selection

/-!
# What excludes a file

A pattern excludes a file when it matches one of the names that the path of
the file goes by: its text as it is, and, below the current directory, the
text of the path from there (`Path.GoesBy`). Whether a path lies below a
directory is asked of its names one by one, so a directory whose name only
begins like that of another has nothing to do with it.

A pattern matches a name as a whole, which is to say that the name can be cut
into pieces for the tokens of the pattern. Both halves are known already, and
`Path.isExcluded_iff` puts them together.
-/

namespace ChangeReview

namespace Path

variable {p cwd : Path}

/-- **The names that a path goes by** where `cwd` is the current directory: its
text, and that of the relative path that leads to it from there, if there is
one and the path is not relative itself. -/
def GoesBy (p cwd : Path) (name : String) : Prop :=
  name = p.text ∨
    p.isAbsolute = true ∧ ∃ x : Path, x.root = .relative ∧ cwd / x = p ∧ name = x.text

theorem mem_aliases {name : String} : name ∈ p.aliases cwd ↔ p.GoesBy cwd name := by
  unfold aliases GoesBy
  rw [List.mem_cons]
  refine or_congr_right ?_
  split
  · next habsolute =>
    rw [Option.mem_toList, Option.map_eq_some_iff]
    simp only [relativeTo?_eq_some_iff, habsolute, true_and, and_assoc, eq_comm (a := name)]
  · next hrelative => simp [hrelative]

/-- A path below the current directory goes by two names. -/
theorem aliases_join {base x : Path} (hbase : base.isAbsolute) (hx : x.root = .relative) :
    (base / x).aliases base = [(base / x).text, x.text] := by
  unfold aliases
  rw [if_pos (isAbsolute_join hbase hx), relativeTo?_join hx]
  rfl

theorem isExcluded_eq_true_iff {excludes : List String} :
    p.isExcluded cwd excludes = true
      ↔ ∃ pattern ∈ excludes, ∃ name ∈ p.aliases cwd, Glob.isMatch pattern name = true := by
  unfold isExcluded
  simp only [List.any_eq_true]

/-- **What excludes a file of a directory** is what matches its path inside the
directory, or its whole path. -/
theorem isExcluded_join_eq_or {base x : Path} (hbase : base.isAbsolute) (hx : x.root = .relative)
    (excludes : List String) :
    (base / x).isExcluded base excludes
      = (excludes.any (Glob.isMatch · x.text) ||
        excludes.any (Glob.isMatch · (base / x).text)) := by
  rw [Bool.eq_iff_iff, isExcluded_eq_true_iff, aliases_join hbase hx]
  simp only [Bool.or_eq_true, List.any_eq_true, List.mem_cons, List.not_mem_nil, or_false,
    exists_eq_or_imp, exists_eq_left, and_or_left, exists_or]
  exact or_comm

/-- **What excludes a file.** A file is excluded exactly if some pattern can be
cut into tokens, and one of the names that its path goes by into as many
pieces, such that each token stands for its piece. A pattern is cut in exactly
one way. What a pattern without brackets leaves of a name is left to the
pattern behind it. -/
theorem isExcluded_iff (p cwd : Path) (excludes : List String) :
    (p.isExcluded cwd excludes = true ↔ ∃ pattern ∈ excludes, ∃ name, p.GoesBy cwd name ∧
      ∃ ts, Glob.IsCut pattern.toList ts ∧ Glob.Spells ts name.toList) ∧
    (∀ pattern : String, ∃! ts, Glob.IsCut pattern.toList ts) ∧
    ∀ front back name : String, '[' ∉ front.toList →
      (Glob.isMatch (front ++ back) name = true
        ↔ ∃ u w, name = u ++ w ∧ Glob.isMatch front u = true ∧ Glob.isMatch back w = true) := by
  refine ⟨?_, fun pattern => ?_, fun front back name h => Glob.isMatch_append h back name⟩
  · rw [isExcluded_eq_true_iff]
    simp only [mem_aliases, Glob.isMatch_iff, Glob.isCut_iff, exists_eq_left]
  · exact ⟨_, Glob.isCut_iff.mpr rfl, fun ts h => Glob.isCut_iff.mp h⟩

end Path

end ChangeReview
