import ChangeReview.Proofs.Change.Reading

/-!
# Reading recovers the inserted lines

Reading a diff gives back what was written into it: one change for each
file, and as its added lines the lines that its edit script inserts, with
their numbers in the new file. The numbers a reader works out hunk by hunk,
from where the hunk starts and what its lines are marked with, are the ones
that counting through the new file gives (`FileEdit.added_change`).

There is one exception, and it concerns whole diffs. The first line of a
file section can mislead about the name that the file has now, and then the
diff is refused, so that nothing is read from it. `parse_render` says when.
-/

namespace ChangeReview

/-! ## Numbers -/

/-- A text without line feeds loses nothing where line feeds are taken off
its end. -/
theorem LineText.dropWhile_reverse (t : LineText) :
    t.chars.reverse.dropWhile (· == '\n') = t.chars.reverse := by
  cases h : t.chars.reverse with
  | nil => rfl
  | cons c cs =>
    have hc : c ∈ t.chars := by rw [← List.mem_reverse, h]; exact List.mem_cons_self
    have hne : ¬ (c == '\n') = true := by
      rw [beq_iff_eq]
      rintro rfl
      exact t.unbroken hc
    exact List.dropWhile_cons_of_neg hne

/-- **The lines that a hunk adds are the ones its edits insert**, counted on
from the same number. -/
theorem Hunk.addedFrom_bodyLines (n : Nat) (es : List Edit) :
    Hunk.addedFrom n (es.flatMap Edit.bodyLines) = Edit.insertedFrom n es := by
  induction es generalizing n with
  | nil => rfl
  | cons e es ih =>
    rw [← List.singleton_append, Edit.insertedFrom_append, ← ih]
    rcases e with ⟨_ | _ | _, text, _ | _⟩ <;>
      simp [Edit.bodyLines, Hunk.addedFrom, Edit.Action.mark, Mark.inTarget, Edit.insertedFrom,
        Edit.newLength, Edit.Action.inNew, LineText.dropWhile_reverse]

/-- A stretch without lines on the new side has none inserted. -/
theorem Edit.insertedFrom_eq_nil {es : List Edit} (h : newLength es = 0) (n : Nat) :
    insertedFrom n es = [] := by
  have hnil : es.filter (·.action.inNew) = [] := by
    rw [← List.length_eq_zero_iff, ← List.countP_eq_length_filter]
    exact h
  rw [insertedFrom, hnil]
  rfl

/-- A hunk adds what its excerpt inserts, counted on from the lines before
it. -/
theorem Excerpt.added_hunk (old new : Nat) (x : Excerpt) :
    (x.hunk old new).added = Edit.insertedFrom (new + 1) x.edits := by
  rw [Hunk.added, hunk, Hunk.addedFrom_bodyLines]
  show Edit.insertedFrom (stretchStart new (Edit.newLength x.edits)) x.edits = _
  unfold stretchStart
  split
  · rename_i hzero
    rw [Edit.insertedFrom_eq_nil hzero, Edit.insertedFrom_eq_nil hzero]
  · rfl

/-- The hunks from an excerpt on add what the script inserts from there. -/
theorem Excerpt.added_hunks (old new : Nat) (xs : List Excerpt) :
    (hunks old new xs).flatMap Hunk.added
      = Edit.insertedFrom (new + 1) (xs.flatMap Excerpt.script) := by
  induction xs generalizing old new with
  | nil => rfl
  | cons x xs ih =>
    have hskipped (n : Nat) : Edit.insertedFrom n x.script = Edit.insertedFrom n x.edits := by
      rw [script, Edit.insertedFrom_append, Edit.insertedFrom_map_kept, List.append_nil]
    rw [hunks, List.flatMap_cons, List.flatMap_cons, added_hunk, ih, Edit.insertedFrom_append,
      hskipped, Nat.add_right_comm]

/-- **The change that a file section tells adds what the edit script
inserts.** -/
theorem FileEdit.added_change (quotePath : Bool) (f : FileEdit) :
    (f.change quotePath).added = Edit.inserted f.cut.script := by
  have hlead : Edit.newLength (f.cut.lead.map Edit.kept) = f.cut.lead.length :=
    Edit.newLength_map_kept _
  rw [FileChange.added, change, Edit.inserted, CutScript.script, Edit.insertedFrom_append,
    Edit.insertedFrom_map_kept, List.nil_append, hlead, Nat.add_comm 1]
  exact Excerpt.added_hunks _ _ _

/-! ## Whole diffs -/

/-- The reader goes through a diff line by line as it was written. -/
theorem FileChange.parse_render_eq (quotePath : Bool) (fs : List FileEdit) :
    parse (FileEdit.render quotePath fs)
      = (Reader.run .init (fs.flatMap (FileEdit.lines quotePath))).bind Reader.finish := by
  have hlines : ∀ l ∈ fs.flatMap (FileEdit.lines quotePath), '\n' ∉ l := by
    intro l hl
    obtain ⟨f, -, hl⟩ := List.mem_flatMap.1 hl
    exact FileEdit.lineFeed_notMem hl
  rw [parse, FileEdit.render, String.toList_ofList, Text.lines_flatMap hlines]
  rfl

/-- Before the first line the reader stands between hunks. -/
theorem Reader.isBetween_init : State.init.IsBetween := by
  intro _ _ _ _ h
  cases h

/-- **A diff is read as the changes that it tells** unless one of its
sections misleads. -/
theorem FileChange.parse_render (quotePath : Bool) {fs : List FileEdit}
    (hfs : ∀ f ∈ fs, ¬ f.IsMisread) :
    parse (FileEdit.render quotePath fs)
      = .ok (fs.map (FileEdit.change quotePath)).toArray := by
  obtain ⟨s, hrun, hbetween, hclosed⟩ := Reader.run_sections Reader.isBetween_init quotePath hfs
  rw [parse_render_eq, hrun]
  show Reader.finish s = _
  rw [Reader.finish_of_isBetween hbetween, hclosed]
  simp [Reader.State.closed, Reader.State.init, Reader.Place.file?]

/-- **A diff is refused** at the first of its sections that misleads. -/
theorem FileChange.parse_render_of_isMisread (quotePath : Bool) {before after : List FileEdit}
    {f : FileEdit} (hbefore : ∀ g ∈ before, ¬ g.IsMisread) (hf : f.IsMisread) :
    parse (FileEdit.render quotePath (before ++ f :: after))
      = .error (.targetWithoutSource
          (String.ofList (FileEdit.nameLine "+++ " (f.kind.targetName quotePath) ++ ['\n']))) := by
  rw [parse_render_eq, Reader.run_sections_of_isMisread Reader.isBetween_init quotePath hbefore hf]
  rfl

/-- **Reading a written diff recovers the inserted lines of every file**, in
order and with their numbers and texts, exactly when no section misleads
about the name its file has now. A section does where the file is still
there and a directory on its path has a name ending in ` b`; the whole diff
is refused then, with the line that names the file as the reason. -/
theorem ChangedFile.added_parse_render (quotePath : Bool) (root : Option Path)
    (fs : List FileEdit) :
    (parse (FileEdit.render quotePath fs) root).map (·.map ChangedFile.added)
      = match fs.find? fun f => decide f.IsMisread with
        | none => .ok (fs.map fun f => Edit.inserted f.cut.script)
        | some f => .error (.targetWithoutSource (String.ofList
            (FileEdit.nameLine "+++ " (f.kind.targetName quotePath) ++ ['\n']))) := by
  cases hfind : fs.find? fun f => decide f.IsMisread with
  | none =>
    have hfs : ∀ f ∈ fs, ¬ f.IsMisread := by simpa using hfind
    rw [parse, FileChange.parse_render quotePath hfs]
    refine congrArg Except.ok ?_
    show List.map added
      (List.map (·.summary root) (fs.map (FileEdit.change quotePath)).toArray.toList) = _
    rw [List.map_map, List.map_map]
    exact List.map_congr_left fun f _ => f.added_change quotePath
  | some f =>
    obtain ⟨hf, before, after, rfl, hbefore⟩ := List.find?_eq_some_iff_append.1 hfind
    rw [parse, FileChange.parse_render_of_isMisread quotePath (by simpa using hbefore)
      (by simpa using hf)]
    rfl

/-- The change of a file `x b/y` that puts a line in the place of its only
one. -/
def FileEdit.inSpacedDirectory : FileEdit where
  kind := .modified ⟨["x b", "y"], by decide, by decide⟩ none
  oldContent := [1]
  newContent := [2]
  contentMode := none
  cut :=
    { lead := []
      excerpts :=
        [{  edits := [⟨.delete, ⟨['a'], by decide⟩, false⟩, ⟨.insert, ⟨['b'], by decide⟩, false⟩]
            changes := by decide
            skipped := []
            heading := ⟨[], by decide⟩
            briefOld := true
            briefNew := true }]
      shown := by decide }

/-- **The change of a file `x b/y` is refused**, although it inserts a
line. -/
theorem ChangedFile.parse_render_inSpacedDirectory :
    parse (FileEdit.render true [FileEdit.inSpacedDirectory]) none
        = .error (.targetWithoutSource "+++ b/x b/y\t\n")
      ∧ Edit.inserted FileEdit.inSpacedDirectory.cut.script = [⟨1, "b"⟩] := by
  have hmisread : FileEdit.inSpacedDirectory.IsMisread := by decide
  refine ⟨?_, rfl⟩
  rw [parse, ← List.nil_append [FileEdit.inSpacedDirectory],
    FileChange.parse_render_of_isMisread true (by simp) hmisread]
  rfl

end ChangeReview
