import ChangeReview.Proofs.Change.Recovery

/-!
# A change is given back as it could have been written

What is read of a file comes with a diff of this file alone, put together
from what the reader has kept. It need not be the text that was read: the
lengths of hunks are written out, where a diff may leave out a length of one.
But it is a text that could have been read, namely the same change written by
a writer that leaves nothing out (`FileEdit.inFull`, `FileEdit.text_change`).

So nothing is to be proved about reading such a diff that has not been proved
about reading any. Its change is the one it was made from, since what a hunk
says does not depend on whether a length was left out
(`FileEdit.change_inFull`), and the diffs of several files one behind the
other are a diff of all of them.

Names are another matter. A name with a space in it is closed by a tab, and a
reader does not keep the tab; hence what is said here is said of paths
without spaces, quoted or not.
-/

namespace ChangeReview

/-! ## Names without spaces -/

namespace RepoPath

variable {quotePath : Bool}

/-- A path without spaces does not mislead about where a name ends. -/
theorem not_hasSideMark_of_space {p : RepoPath} (h : ' ' ∉ p.chars) : ¬ p.HasSideMark :=
  fun hmark => h (hmark.subset List.mem_cons_self)

/-- A path without spaces is written without spaces. -/
theorem space_notMem_sideName {p : RepoPath} (h : ' ' ∉ p.chars) {side : Char} (hside : side ≠ ' ') :
    ' ' ∉ p.sideName quotePath side := by
  have hescaped : ' ' ∉ p.chars.flatMap (escaped quotePath) := by
    intro hmem
    obtain ⟨left, right, hcut⟩ := List.append_of_mem hmem
    obtain ⟨l, t, hchars, -⟩ := cut_escaped hcut
    exact h (hchars ▸ List.mem_append_right l List.mem_cons_self)
  rw [sideName_eq]
  split
  · simp [hside.symm, h]
  · simp [hside.symm, hescaped]

end RepoPath

/-- Whether the paths of a change have no spaces in them. -/
def FileEdit.IsSpaceless (f : FileEdit) : Prop :=
  ' ' ∉ f.kind.source.chars ∧ ' ' ∉ f.kind.target.chars

instance (f : FileEdit) : Decidable f.IsSpaceless := inferInstanceAs (Decidable (_ ∧ _))

namespace FileEdit.IsSpaceless

variable {quotePath : Bool} {f : FileEdit} (h : f.IsSpaceless)
include h

/-- The first line of the section does not mislead. -/
theorem not_isMisread : ¬ f.IsMisread := fun hmisread =>
  RepoPath.not_hasSideMark_of_space h.2 hmisread.2

/-- The old side is read by its name. -/
theorem source_change : (f.change quotePath).source = String.ofList (f.kind.sourceName quotePath) := by
  have hfirst : f.firstName quotePath = f.kind.source.sideName quotePath 'a' := by
    unfold firstName
    rw [RepoPath.twoNames?_sideName _ _ (RepoPath.not_hasSideMark_of_space h.2)]
    rfl
  show (if f.kind.hasSource then String.ofList (f.firstName quotePath) else FileChange.nowhere) = _
  unfold Kind.sourceName
  rw [hfirst]
  split
  · rfl
  · exact String.ofList_toList.symm

theorem space_notMem_sourceName : ' ' ∉ f.kind.sourceName quotePath := by
  unfold Kind.sourceName
  split
  · exact RepoPath.space_notMem_sideName h.1 (by decide)
  · decide

theorem space_notMem_targetName : ' ' ∉ f.kind.targetName quotePath := by
  unfold Kind.targetName
  split
  · exact RepoPath.space_notMem_sideName h.2 (by decide)
  · decide

end FileEdit.IsSpaceless

/-- The line that gives back the name of a side is the one that was read. -/
theorem FileChange.nameLine_eq {name : List Char} (h : ' ' ∉ name) (mark : String) :
    nameLine mark (String.ofList name) none = FileEdit.nameLine mark name ++ ['\n'] := by
  unfold nameLine FileEdit.nameLine
  rw [String.toList_ofList, if_neg h]
  rfl

/-! ## Lengths that are written out -/

/-- The excerpt with both lengths of its hunk written out. -/
def Excerpt.inFull (x : Excerpt) : Excerpt := { x with briefOld := false, briefNew := false }

/-- **The change as a writer tells it that leaves nothing out.** -/
def FileEdit.inFull (f : FileEdit) : FileEdit :=
  { f with
    cut :=
      { f.cut with
        excerpts := f.cut.excerpts.map Excerpt.inFull
        shown := fun h => f.cut.shown (List.map_eq_nil_iff.mp h) } }

/-- What the hunks say is the same. -/
theorem Excerpt.hunks_inFull (old new : Nat) (xs : List Excerpt) :
    hunks old new (xs.map inFull) = hunks old new xs := by
  induction xs generalizing old new with
  | nil => rfl
  | cons x xs ih => exact congrArg (x.hunk old new :: ·) (ih _ _)

/-- **What a section tells does not depend on lengths being written out.** -/
theorem FileEdit.change_inFull (quotePath : Bool) (f : FileEdit) :
    f.inFull.change quotePath = f.change quotePath := by
  have hhunks : f.inFull.cut.hunks = f.cut.hunks := Excerpt.hunks_inFull _ _ _
  unfold change
  rw [hhunks]
  rfl

/-! ## Texts -/

/-- The lines as they stand in a text. -/
def ended (ls : List (List Char)) : List Char := ls.flatMap (· ++ ['\n'])

@[simp] theorem ended_append (ls ls' : List (List Char)) :
    ended (ls ++ ls') = ended ls ++ ended ls' := List.flatMap_append

theorem ended_singleton (l : List Char) : ended [l] = l ++ ['\n'] := List.flatMap_singleton ..

/-- What the lines of an edit say is given back as these lines. -/
theorem Edit.text_bodyLines (e : Edit) :
    (e.bodyLines.flatMap fun l => l.mark.text ++ l.text.toList) = ended e.lines := by
  have hsign : e.action.mark.text = [e.action.sign] := by cases e.action <;> rfl
  have hremark : Mark.noLineEnd.text ++ " No newline at end of file\n".toList
      = noLineEndRemark ++ ['\n'] := rfl
  have hline : e.action.mark.text ++ (String.ofList (e.text.chars ++ ['\n'])).toList
      = (e.action.sign :: e.text.chars) ++ ['\n'] := by
    rw [hsign, String.toList_ofList]
    rfl
  unfold bodyLines lines ended
  rw [List.flatMap_cons, List.flatMap_cons, hline]
  cases e.noLineEnd with
  | false => rfl
  | true =>
    rw [if_pos rfl, if_pos rfl, List.flatMap_singleton, List.flatMap_singleton]
    exact congrArg _ hremark

/-- The heading of a hunk is given back, where there is one. -/
theorem Excerpt.heading_hunk (old new : Nat) (x : Excerpt) :
    (if (x.hunk old new).heading = "" then [] else ' ' :: (x.hunk old new).heading.toList)
      = if x.heading.chars = [] then [] else ' ' :: x.heading.chars := by
  have hnil : (x.hunk old new).heading = "" ↔ x.heading.chars = [] := String.ofList_eq_empty_iff
  have hchars : (x.hunk old new).heading.toList = x.heading.chars := String.toList_ofList
  rw [hchars]
  exact if_congr hnil rfl rfl

/-- **A hunk is given back with its lengths written out.** -/
theorem Excerpt.text_hunk (old new : Nat) (x : Excerpt) :
    (x.hunk old new).text = ended (x.inFull.lines old new) := by
  have hheader : (x.hunk old new).header = x.inFull.header old new ++ ['\n'] := by
    unfold Hunk.header header
    exact congrArg (· ++ ['\n']) (congrArg₂ _ rfl (x.heading_hunk old new))
  have hbody : ((x.hunk old new).lines.toList.flatMap fun l => l.mark.text ++ l.text.toList)
      = ended (x.edits.flatMap Edit.lines) := by
    show (x.edits.flatMap Edit.bodyLines).flatMap _ = (x.edits.flatMap Edit.lines).flatMap _
    rw [List.flatMap_assoc, List.flatMap_assoc]
    exact congrArg (List.flatMap · x.edits) (funext Edit.text_bodyLines)
  rw [Hunk.text, hheader, hbody, ← ended_singleton, ← ended_append]
  rfl

/-- So are all hunks of a script. -/
theorem Excerpt.text_hunks (old new : Nat) (xs : List Excerpt) :
    (hunks old new xs).flatMap Hunk.text = ended (linesOf old new (xs.map inFull)) := by
  induction xs generalizing old new with
  | nil => rfl
  | cons x xs ih =>
    rw [hunks, List.flatMap_cons, text_hunk, ih, List.map_cons, linesOf, ended_append]
    rfl

/-- Lines that were kept are given back. -/
theorem FileEdit.text_keptLines (ls : List (List Char)) :
    (keptLines ls).toList.flatMap String.toList = ended ls := by
  show (ls.map fun l => String.ofList (l ++ ['\n'])).flatMap String.toList = _
  rw [List.flatMap_map]
  simp only [String.toList_ofList]
  rfl

/-- A script that is shown has a hunk. -/
theorem CutScript.hunks_ne_nil (s : CutScript) : s.hunks ≠ [] := by
  unfold hunks
  cases hexcerpts : s.excerpts with
  | nil => exact absurd hexcerpts s.shown
  | cons x xs => exact List.cons_ne_nil _ _

/-- **A change is given back as its section, lengths written out.** -/
theorem FileEdit.text_change (quotePath : Bool) {f : FileEdit} (h : f.IsSpaceless) :
    (f.change quotePath).text = render quotePath [f.inFull] := by
  have hshown : (f.change quotePath).hunks.isEmpty = false := by
    show f.cut.hunks.toArray.isEmpty = false
    rw [List.isEmpty_toArray, List.isEmpty_eq_false_iff]
    exact f.cut.hunks_ne_nil
  have hnames : FileChange.nameLine "--- " (f.change quotePath).source none
        ++ FileChange.nameLine "+++ " (f.change quotePath).target none
      = ended [nameLine "--- " (f.kind.sourceName quotePath),
          nameLine "+++ " (f.kind.targetName quotePath)] := by
    rw [h.source_change, FileChange.nameLine_eq h.space_notMem_sourceName]
    show _ ++ FileChange.nameLine "+++ " (String.ofList (f.kind.targetName quotePath)) none = _
    rw [FileChange.nameLine_eq h.space_notMem_targetName]
    simp [ended]
  have hhunks : (f.change quotePath).hunks.toList.flatMap Hunk.text = ended f.inFull.cut.lines :=
    Excerpt.text_hunks _ _ _
  unfold FileChange.text render
  rw [hshown, hhunks, List.flatMap_singleton]
  show String.ofList ((keptLines (f.infoLines quotePath)).toList.flatMap String.toList ++
    (FileChange.nameLine "--- " (f.change quotePath).source none ++
      FileChange.nameLine "+++ " (f.change quotePath).target none) ++ _)
    = String.ofList (ended (f.inFull.lines quotePath))
  rw [hnames, text_keptLines, ← ended_append, ← ended_append]
  rfl

/-- Diffs one behind the other are a diff of all their files. -/
theorem FileEdit.join_render (quotePath : Bool) (fs : List FileEdit) :
    String.join (fs.map fun f => render quotePath [f]) = render quotePath fs := by
  rw [← String.ofList_toList (s := String.join _), String.toList_join, List.flatMap_map]
  unfold render
  simp only [String.toList_ofList, List.flatMap_singleton]
  rw [List.flatMap_assoc]

/-! ## Reading again -/

/-- **A diff that was read is read again from what is given back.** Take a
diff as version control writes it, of files that have no spaces in their
paths. It is read, and the added lines are the inserted ones. The diffs that
its files come with, one behind the other, are read as the very same files,
and the diff of a single file is read as this file alone. -/
theorem ChangedFile.parse_diffs (quotePath : Bool) (root : Option Path) {fs : List FileEdit}
    (hfs : ∀ f ∈ fs, f.IsSpaceless) :
    ∃ files : List ChangedFile, parse (FileEdit.render quotePath fs) root = .ok files ∧
      files.map added = fs.map (fun f => Edit.inserted f.cut.script) ∧
      parse (String.join (files.map diff)) root = .ok files ∧
      ∀ file ∈ files, parse file.diff root = .ok [file] := by
  -- what is written of such files is read as the changes that it tells
  have hread {gs : List FileEdit} (hgs : ∀ g ∈ gs, g.IsSpaceless) :
      parse (FileEdit.render quotePath gs) root
        = .ok (gs.map fun g => (g.change quotePath).summary root) := by
    rw [parse, FileChange.parse_render quotePath fun g hg => (hgs g hg).not_isMisread]
    exact congrArg Except.ok (List.map_map ..)
  have hfull : ∀ g ∈ fs.map FileEdit.inFull, g.IsSpaceless := by
    intro g hg
    obtain ⟨f, hf, rfl⟩ := List.mem_map.mp hg
    exact hfs f hf
  have hsame (f : FileEdit) :
      (f.inFull.change quotePath).summary root = (f.change quotePath).summary root := by
    rw [f.change_inFull]
  refine ⟨fs.map fun f => (f.change quotePath).summary root, hread hfs, ?_, ?_, ?_⟩
  · rw [List.map_map]
    exact List.map_congr_left fun f _ => f.added_change quotePath
  · have hdiffs : (fs.map fun f => (f.change quotePath).summary root).map diff
        = (fs.map FileEdit.inFull).map fun g => FileEdit.render quotePath [g] := by
      rw [List.map_map, List.map_map]
      exact List.map_congr_left fun f hf => FileEdit.text_change quotePath (hfs f hf)
    rw [hdiffs, FileEdit.join_render, hread hfull, List.map_map]
    exact congrArg Except.ok (List.map_congr_left fun f _ => hsame f)
  · intro file hfile
    obtain ⟨f, hf, rfl⟩ := List.mem_map.mp hfile
    show parse (f.change quotePath).text root = _
    rw [FileEdit.text_change quotePath (hfs f hf)]
    rw [hread fun g hg => hfull g (List.mem_map.mpr ⟨f, hf, (List.mem_singleton.mp hg).symm⟩)]
    exact congrArg (fun file => Except.ok [file]) (hsame f)

/-- A file that is created without a line end, and one that is renamed and has
its only line replaced. -/
def FileEdit.createdAndRenamed : List FileEdit :=
  let excerpt (edits : List Edit) (changes : ∃ e ∈ edits, e.action ≠ .keep) : Excerpt :=
    ⟨edits, changes, [], ⟨['f'], by decide⟩, true, true⟩
  let cut (x : Excerpt) : CutScript := ⟨[], [x], List.cons_ne_nil _ _⟩
  [{ FileEdit.inSpacedDirectory with
      kind := .created ⟨["a.py"], by decide, by decide⟩ ⟨[1, 0, 0, 6, 4, 4], by decide⟩
      cut := cut (excerpt [⟨.insert, ⟨['x'], by decide⟩, true⟩] (by decide)) },
    { FileEdit.inSpacedDirectory with
      kind := .renamed ⟨["b.py"], by decide, by decide⟩ ⟨["d", "c.py"], by decide, by decide⟩ none 50
      cut := cut (excerpt
        [⟨.delete, ⟨['y'], by decide⟩, false⟩, ⟨.insert, ⟨['+', 'z'], by decide⟩, false⟩]
        (by decide)) }]

/-- The lengths are left out in the diff that is read, and written out in what
is given back. -/
theorem ChangedFile.parse_diffs_createdAndRenamed :
    FileEdit.render true FileEdit.createdAndRenamed
        = "diff --git a/a.py b/a.py\nnew file mode 100644\nindex 1..2\n--- /dev/null\n+++ b/a.py\n"
          ++ "@@ -0,0 +1 @@ f\n+x\n\\ No newline at end of file\n"
          ++ "diff --git a/b.py b/d/c.py\nsimilarity index 50%\nrename from b.py\n"
          ++ "rename to d/c.py\nindex 1..2\n--- a/b.py\n+++ b/d/c.py\n@@ -1 +1 @@ f\n-y\n++z\n" ∧
      ∃ files : List ChangedFile,
        parse (FileEdit.render true FileEdit.createdAndRenamed) none = .ok files ∧
        files.map added = [[⟨1, "x"⟩], [⟨1, "+z"⟩]] ∧
        parse (String.join (files.map diff)) none = .ok files ∧
        ∀ file ∈ files, parse file.diff none = .ok [file] := by
  have hspaceless : ∀ f ∈ FileEdit.createdAndRenamed, f.IsSpaceless := by decide +kernel
  obtain ⟨files, hparse, hadded, hdiffs, hdiff⟩ := ChangedFile.parse_diffs true none hspaceless
  exact ⟨by decide +kernel, files, hparse, hadded, hdiffs, hdiff⟩

end ChangeReview
