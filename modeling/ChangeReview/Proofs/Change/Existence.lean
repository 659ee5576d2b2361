import ChangeReview.Proofs.Change.Recovery

/-!
# Files that come into being and cease to be

A diff says of a file that comes into being that it has no source name, and
of one that ceases to be that it has no target name. The reader goes by these
names, but not by them alone: a file also counts as new if its only hunk takes
the place of no lines ahead of the first one, and as deleted if it leaves none
there.

Files that are created or deleted are told all the same, so this adds nothing
but mistakes. A file that was empty and is given its first lines is there
before as well as after; its one hunk starts from nothing, and it is taken
for a new one. A file that loses all its lines is taken for a deleted one. And
where a diff shows no lines around a change, it is enough that lines are put
in front of all others, or that the first ones are taken away.

What a hunk says about its own start is the same for either side: a stretch
without lines starts at the line before it, which is none only at the start of
the file (`CutScript.all_hunks_eq`).
-/

namespace ChangeReview

/-! ## Hunks that show nothing of a side -/

/-- **A script that shows nothing of a side**: one excerpt, ahead of all lines
that it leaves out, in which no line of this side is counted. -/
def CutScript.ShowsNone (count : List Edit → Nat) (s : CutScript) : Prop :=
  s.lead = [] ∧ s.excerpts.length = 1 ∧ ∀ x ∈ s.excerpts, count x.edits = 0

instance (count : List Edit → Nat) (s : CutScript) : Decidable (s.ShowsNone count) :=
  inferInstanceAs (Decidable (_ ∧ _ ∧ _))

/-- A stretch starts from nothing if it has no lines and there are none before
it. -/
theorem stretchStart_eq_zero_iff {before length : Nat} :
    stretchStart before length = 0 ∧ length = 0 ↔ before = 0 ∧ length = 0 := by
  unfold stretchStart
  split <;> omega

/-- **What the only hunk of a file says of a side.** It starts from nothing
exactly if the script shows nothing of that side. -/
theorem CutScript.all_hunks_eq {start length : Hunk → Nat} {count : List Edit → Nat}
    (hstart : ∀ n x, start (Excerpt.hunk n n x) = stretchStart n (count x.edits))
    (hlength : ∀ n x, length (Excerpt.hunk n n x) = count x.edits) (s : CutScript) :
    (s.hunks.toArray.size = 1 && s.hunks.toArray.all fun h => start h = 0 && length h = 0)
      = decide (s.ShowsNone count) := by
  obtain ⟨lead, excerpts, shown⟩ := s
  rw [Bool.eq_iff_iff, decide_eq_true_iff]
  unfold ShowsNone
  match excerpts with
  | [] => exact absurd rfl shown
  | [x] =>
    have hx : start (x.hunk lead.length lead.length) = 0 ∧
        length (x.hunk lead.length lead.length) = 0 ↔ lead = [] ∧ count x.edits = 0 := by
      rw [hstart, hlength, stretchStart_eq_zero_iff, List.length_eq_zero_iff]
    simpa [hunks, Excerpt.hunks] using hx
  | x :: y :: xs => simp [hunks, Excerpt.hunks]

namespace FileEdit

variable {quotePath : Bool} {f : FileEdit}

/-- The name that a section gives the old side is that of a file exactly if
the file was there before. -/
theorem source_change_eq_nowhere_iff :
    (f.change quotePath).source = FileChange.nowhere ↔ f.kind.hasSource = false := by
  have hsource : HeaderLine.isSide 'a' (f.kind.source.sideName quotePath 'a') = true :=
    RepoPath.isSide_sideName (by decide) _
  have htarget : HeaderLine.isSide 'b' (f.kind.target.sideName quotePath 'b') = true :=
    RepoPath.isSide_sideName (by decide) _
  obtain ⟨a, b, hnames, ha⟩ :=
    HeaderLine.exists_twoNames? hsource (RepoPath.inName_sideNames _ _) htarget
  have hfirst : f.firstName quotePath = a := by
    rw [firstName, hnames]
    rfl
  unfold change
  cases f.kind.hasSource with
  | false => simp
  | true => simpa [hfirst] using HeaderLine.ne_nowhere_of_isSide (by decide) (by decide) ha

/-- So is the name of the new side if it is there afterwards. -/
theorem target_change_eq_nowhere_iff :
    (f.change quotePath).target = FileChange.nowhere ↔ f.kind.hasTarget = false := by
  have hside : HeaderLine.isSide 'b' (f.kind.target.sideName quotePath 'b') = true :=
    RepoPath.isSide_sideName (by decide) _
  unfold change Kind.targetName
  cases f.kind.hasTarget with
  | false => simp
  | true => simpa using HeaderLine.ne_nowhere_of_isSide (by decide) (by decide) hside

/-- **When a file counts as new**: if it was not there, or if nothing is shown of
how it was. -/
theorem isNew_change :
    (f.change quotePath).isNew
      = decide (f.kind.hasSource = false ∨ f.cut.ShowsNone Edit.oldLength) := by
  unfold FileChange.isNew
  rw [Bool.decide_or, decide_eq_decide.mpr source_change_eq_nowhere_iff]
  exact congrArg _ (CutScript.all_hunks_eq (fun _ _ => rfl) (fun _ _ => rfl) f.cut)

/-- **When a file counts as deleted**: if it is not there any more, or if
nothing is shown of how it is. -/
theorem isDeleted_change :
    (f.change quotePath).isDeleted
      = decide (f.kind.hasTarget = false ∨ f.cut.ShowsNone Edit.newLength) := by
  unfold FileChange.isDeleted
  rw [Bool.decide_or, decide_eq_decide.mpr target_change_eq_nowhere_iff]
  exact congrArg _ (CutScript.all_hunks_eq (fun _ _ => rfl) (fun _ _ => rfl) f.cut)

end FileEdit

/-! ## Whole diffs -/

/-- A written diff is read as what its sections tell, or refused at the first
one that misleads. -/
theorem ChangedFile.parse_render (quotePath : Bool) (root : Option Path) (fs : List FileEdit) :
    parse (FileEdit.render quotePath fs) root
      = match fs.find? fun f => decide f.IsMisread with
        | none => .ok (fs.map fun f => (f.change quotePath).summary root)
        | some f => .error (.targetWithoutSource (String.ofList
            (FileEdit.nameLine "+++ " (f.kind.targetName quotePath) ++ ['\n']))) := by
  cases hfind : fs.find? fun f => decide f.IsMisread with
  | none =>
    rw [parse, FileChange.parse_render quotePath (by simpa using hfind)]
    refine congrArg Except.ok ?_
    show List.map (·.summary root) (fs.map (FileEdit.change quotePath)).toArray.toList = _
    rw [List.map_map]
    rfl
  | some f =>
    obtain ⟨hf, before, after, rfl, hbefore⟩ := List.find?_eq_some_iff_append.1 hfind
    rw [parse, FileChange.parse_render_of_isMisread quotePath (by simpa using hbefore)
      (by simpa using hf)]
    rfl

/-- **Which files a written diff is read to create and to delete.** A file
counts as new if it was not there before, but also if the diff shows nothing
of how it was; and as deleted if it is not there afterwards, but also if the
diff shows nothing of how it is. Nothing is said of the files of a diff that
is refused. -/
theorem ChangedFile.existence_parse_render (quotePath : Bool) (root : Option Path)
    (fs : List FileEdit) :
    (parse (FileEdit.render quotePath fs) root).map
        (·.map fun file => (file.isNew, file.isDeleted))
      = match fs.find? fun f => decide f.IsMisread with
        | none => .ok (fs.map fun f =>
            (decide (f.kind.hasSource = false ∨ f.cut.ShowsNone Edit.oldLength),
              decide (f.kind.hasTarget = false ∨ f.cut.ShowsNone Edit.newLength)))
        | some f => .error (.targetWithoutSource (String.ofList
            (FileEdit.nameLine "+++ " (f.kind.targetName quotePath) ++ ['\n']))) := by
  rw [parse_render]
  split
  · refine congrArg Except.ok (List.map_map.trans (List.map_congr_left fun f _ => ?_))
    exact congrArg₂ Prod.mk FileEdit.isNew_change FileEdit.isDeleted_change
  · rfl

/-- A modified file with one hunk, which starts where the file does. -/
def FileEdit.inOneHunk (path : RepoPath) (edits : List Edit)
    (changes : ∃ e ∈ edits, e.action ≠ .keep) : FileEdit :=
  { FileEdit.inSpacedDirectory with
    kind := .modified path none
    cut :=
      { lead := []
        excerpts := FileEdit.inSpacedDirectory.cut.excerpts.map fun x => { x with edits, changes }
        shown := List.map_eq_nil_iff.not.mpr FileEdit.inSpacedDirectory.cut.shown } }

/-- The change of an empty file that gives it its first line. -/
def FileEdit.filled : FileEdit :=
  .inOneHunk ⟨["__init__.py"], by decide, by decide⟩ [⟨.insert, ⟨['i'], by decide⟩, false⟩]
    (by decide)

/-- The change of a file that takes its only line away. -/
def FileEdit.emptied : FileEdit :=
  .inOneHunk ⟨["old.py"], by decide, by decide⟩ [⟨.delete, ⟨['o'], by decide⟩, false⟩] (by decide)

/-- **Two files that are there before and afterwards** are taken for a new one
and a deleted one. -/
theorem ChangedFile.parse_render_filledAndEmptied :
    FileEdit.render true [FileEdit.filled, FileEdit.emptied]
        = "diff --git a/__init__.py b/__init__.py\nindex 1..2\n--- a/__init__.py\n"
          ++ "+++ b/__init__.py\n@@ -0,0 +1 @@\n+i\n"
          ++ "diff --git a/old.py b/old.py\nindex 1..2\n--- a/old.py\n"
          ++ "+++ b/old.py\n@@ -1 +0,0 @@\n-o\n" ∧
      (∀ f ∈ [FileEdit.filled, FileEdit.emptied],
        f.kind.hasSource = true ∧ f.kind.hasTarget = true) ∧
      (parse (FileEdit.render true [FileEdit.filled, FileEdit.emptied]) none).map
          (·.map fun file => (file.path, file.isNew, file.isDeleted))
        = .ok [(.ofString "__init__.py", true, false), (.ofString "old.py", false, true)] := by
  refine ⟨by decide +kernel, by decide, ?_⟩
  rw [parse_render]
  decide +kernel

end ChangeReview
