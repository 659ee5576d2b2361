import ChangeReview.Change.Parser
import ChangeReview.Proofs.Change.Meaning

/-!
# Reading what was written

The reader is followed through a written diff from line to line. Inside a
hunk the lengths in its header say how many lines are still to come, and
they are those of the rest of the excerpt; so the reader leaves the hunk
behind its last line and not before, whatever the lines look like
(`Reader.run_excerpt`). A remark behind the last line finds the hunk
complete and is added to it all the same.

The one thing that can go wrong is the first line of a section. Where the
new path has a side mark in it the reader expects another name than the one
it is given later, and refuses the diff (`Reader.run_lines`).
-/

namespace ChangeReview

namespace Reader

/-- The reading of some lines, their line ends not shown. -/
def run (s : State) (ls : List (List Char)) : Except ChangeError State :=
  (ls.map (· ++ ['\n'])).foldlM step s

@[simp] theorem run_nil (s : State) : run s [] = .ok s := rfl

theorem run_cons (s : State) (l : List Char) (ls : List (List Char)) :
    run s (l :: ls) = (step s (l ++ ['\n'])).bind fun s => run s ls := rfl

theorem run_append (s : State) (ls ls' : List (List Char)) :
    run s (ls ++ ls') = (run s ls).bind fun s => run s ls' := by
  rw [run, List.map_append, List.foldlM_append]
  rfl

/-- The state with another place. -/
def State.moveTo (s : State) (place : Place) : State := { s with place }

@[simp] theorem State.moveTo_place (s : State) (place : Place) : (s.moveTo place).place = place :=
  rfl

@[simp] theorem State.moveTo_moveTo (s : State) (place place' : Place) :
    (s.moveTo place).moveTo place' = s.moveTo place' := rfl

/-- Inside a hunk a line is read as a line of the hunk. -/
theorem step_of_hunk {s : State} {file : FileChange} {h : Hunk} {source target : Nat}
    (hs : s.place = .hunk file h source target) (line : List Char) :
    step s line = s.readBody file h source target line := by
  rw [step, hs]

/-- Elsewhere a line is read for what it means. -/
theorem step_of_ne_hunk {s : State}
    (hs : ∀ file h source target, s.place ≠ .hunk file h source target) (line : List Char) :
    step s line = s.readHeader (String.ofList line) (HeaderLine.ofText line) := by
  unfold step
  split
  · rename_i heq
    exact absurd heq (hs _ _ _ _)
  · rfl

/-! ## Hunks -/

/-- Where a hunk leaves the reader that still lacks so many lines on either
side: behind it once it lacks none. -/
def underway (file : FileChange) (h : Hunk) (source target : Nat) : Place :=
  if source = 0 ∧ target = 0 then .body (file.pushHunk h) else .hunk file h source target

/-- **A line of an edit is taken for what it is**, as long as the hunk lacks
lines. -/
theorem step_edit (s : State) (file : FileChange) (h : Hunk) (e : Edit) (source target : Nat) :
    step (s.moveTo (.hunk file h (Edit.oldLength [e] + source) (Edit.newLength [e] + target)))
        (e.action.sign :: e.text.chars ++ ['\n'])
      = .ok (s.moveTo (underway file
          (h.push ⟨e.action.mark, String.ofList (e.text.chars ++ ['\n'])⟩) source target)) := by
  rcases e with ⟨_ | _ | _, text, noLineEnd⟩ <;>
    simp [step, State.readBody, bodyLine?, Edit.Action.sign, Edit.Action.mark, Edit.oldLength,
      Edit.newLength, Edit.Action.inOld, Edit.Action.inNew, Mark.inSource, Mark.inTarget, underway,
      State.moveTo]

/-- A line can be added to the hunk a file was given last. -/
theorem pushLine?_pushHunk (file : FileChange) (h : Hunk) (l : BodyLine) :
    (file.pushHunk h).pushLine? l = some (file.pushHunk (h.push l)) := by
  simp [FileChange.pushLine?, FileChange.pushHunk]

/-- **A remark is added to the hunk** whether the hunk is complete by then or
not. -/
theorem step_remark (s : State) (file : FileChange) (h : Hunk) (source target : Nat) :
    step (s.moveTo (underway file h source target)) (noLineEndRemark ++ ['\n'])
      = .ok (s.moveTo (underway file
          (h.push ⟨.noLineEnd, " No newline at end of file\n"⟩) source target)) := by
  by_cases hdone : source = 0 ∧ target = 0
  · rw [underway, underway, if_pos hdone, if_pos hdone]
    rw [step_of_ne_hunk (by simp), HeaderLine.ofText_noLineEndRemark]
    simp [State.readHeader, State.pushLine?, pushLine?_pushHunk, Place.file?, State.moveTo]
  · have hline : bodyLine? (noLineEndRemark ++ ['\n'])
        = some (.noLineEnd, " No newline at end of file\n".toList) := rfl
    rw [underway, underway, if_neg hdone, if_neg hdone]
    rw [step_of_hunk (State.moveTo_place ..), State.readBody, hline]
    simp [Mark.inSource, Mark.inTarget, State.moveTo, if_neg hdone]

/-- An edit adds its lines to the hunk. -/
theorem run_edit (s : State) (file : FileChange) (h : Hunk) (e : Edit) (source target : Nat) :
    run (s.moveTo (.hunk file h (Edit.oldLength [e] + source) (Edit.newLength [e] + target)))
        e.lines
      = .ok (s.moveTo
          (underway file { h with lines := h.lines ++ e.bodyLines.toArray } source target)) := by
  unfold Edit.lines Edit.bodyLines
  rw [run_cons, step_edit]
  cases e.noLineEnd with
  | false => simp [Hunk.push, Except.bind]
  | true =>
    have htwo (l l' : BodyLine) : (h.lines.push l).push l' = h.lines ++ [l, l'].toArray :=
      Array.toList_inj.1 (by simp)
    simp only [Except.bind, if_true]
    rw [run_cons, step_remark]
    simp only [Except.bind, Hunk.push, run_nil, htwo]

/-- **The edits of an excerpt fill its hunk**: at the last of them, and not
before, the hunk has all its lines and joins its file. -/
theorem run_edits (s : State) (file : FileChange) (h : Hunk) {es : List Edit} (hes : es ≠ []) :
    run (s.moveTo (.hunk file h (Edit.oldLength es) (Edit.newLength es))) (es.flatMap Edit.lines)
      = .ok (s.moveTo (.body (file.pushHunk
          { h with lines := h.lines ++ (es.flatMap Edit.bodyLines).toArray }))) := by
  induction es generalizing h with
  | nil => exact absurd rfl hes
  | cons e es ih =>
    rw [List.flatMap_cons, run_append, ← List.singleton_append, Edit.oldLength_append,
      Edit.newLength_append, run_edit]
    match es with
    | [] => simp [underway, Edit.oldLength, Edit.newLength, Except.bind]
    | e' :: es =>
      -- an edit is on one side at least, so the hunk still lacks a line
      have hlacks : ¬ (Edit.oldLength (e' :: es) = 0 ∧ Edit.newLength (e' :: es) = 0) := by
        rcases e' with ⟨_ | _ | _, text, noLineEnd⟩ <;>
          simp [Edit.oldLength, Edit.newLength, Edit.Action.inOld, Edit.Action.inNew]
      rw [underway, if_neg hlacks]
      show run _ _ = _
      rw [ih _ (List.cons_ne_nil _ _)]
      simp

/-- **An excerpt is read as its hunk**, by a reader that stands at a file. -/
theorem run_excerpt (s : State) {file : FileChange}
    (hs : s.place = .header file ∨ s.place = .body file) (old new : Nat) (x : Excerpt) :
    run s (x.lines old new) = .ok (s.moveTo (.body (file.pushHunk (x.hunk old new)))) := by
  have hedits : x.edits ≠ [] := by
    obtain ⟨e, he, -⟩ := x.changes
    exact List.ne_nil_of_mem he
  have hheader : step s (x.header old new ++ ['\n'])
      = .ok (s.moveTo (.hunk file { x.hunk old new with lines := #[] }
          (Edit.oldLength x.edits) (Edit.newLength x.edits))) := by
    rw [step_of_ne_hunk (by rintro _ _ _ _ h; simp [h] at hs), HeaderLine.ofText_header]
    obtain hs | hs := hs <;> simp [State.readHeader, Place.file?, hs, State.moveTo, Excerpt.hunk]
  rw [Excerpt.lines, run_cons, hheader]
  show run _ _ = _
  rw [run_edits s file _ hedits]
  simp [Excerpt.hunk]

/-- The hunks of a script are read one after the other. -/
theorem run_excerpts (s : State) {file : FileChange}
    (hs : s.place = .header file ∨ s.place = .body file) (old new : Nat) {xs : List Excerpt}
    (hxs : xs ≠ []) :
    run s (Excerpt.linesOf old new xs)
      = .ok (s.moveTo (.body
          { file with hunks := file.hunks ++ (Excerpt.hunks old new xs).toArray })) := by
  induction xs generalizing s file old new with
  | nil => exact absurd rfl hxs
  | cons x xs ih =>
    rw [Excerpt.linesOf, Excerpt.hunks, run_append, run_excerpt s hs]
    show run _ _ = _
    cases xs with
    | nil => simp [Excerpt.linesOf, Excerpt.hunks, FileChange.pushHunk]
    | cons x' xs =>
      rw [ih _ (.inr (State.moveTo_place ..)) _ _ (List.cons_ne_nil _ _)]
      simp [FileChange.pushHunk]

/-! ## File sections -/

/-- Lines that say nothing in particular are kept for the file they stand at
the top of. -/
theorem run_others (s : State) {file : FileChange} (hs : s.place = .header file)
    {ls : List (List Char)} (hls : ∀ l ∈ ls, HeaderLine.ofText (l ++ ['\n']) = .other) :
    run s ls = .ok (s.moveTo
      (.header { file with info := file.info ++ FileEdit.keptLines ls })) := by
  induction ls generalizing s file with
  | nil => simp [FileEdit.keptLines, State.moveTo, ← hs]
  | cons l ls ih =>
    have hstep : step s (l ++ ['\n'])
        = .ok (s.moveTo (.header (file.pushInfo (String.ofList (l ++ ['\n']))))) := by
      rw [step_of_ne_hunk (by simp [hs]), hls l List.mem_cons_self]
      simp [State.readHeader, State.keep, hs, State.moveTo]
    rw [run_cons, hstep]
    show run _ _ = _
    rw [ih _ (State.moveTo_place ..) fun m hm => hls m (List.mem_cons_of_mem l hm)]
    simp [FileEdit.keptLines, FileChange.pushInfo]

/-- The line of a new file leaves the file without an old name. -/
theorem run_newFile (s : State) {file : FileChange} (hs : s.place = .header file) {l : List Char}
    (hl : HeaderLine.ofText (l ++ ['\n']) = .newFile) :
    run s [l] = .ok (s.moveTo (.header { file with
      info := file.info ++ FileEdit.keptLines [l]
      source := FileChange.nowhere })) := by
  rw [run_cons, step_of_ne_hunk (by simp [hs]), hl]
  simp [State.readHeader, State.amend, hs, State.moveTo, FileEdit.keptLines, Except.bind,
    FileChange.pushInfo]

/-- The line of a deleted file leaves the file without a new name. -/
theorem run_deletedFile (s : State) {file : FileChange} (hs : s.place = .header file)
    {l : List Char} (hl : HeaderLine.ofText (l ++ ['\n']) = .deletedFile) :
    run s [l] = .ok (s.moveTo (.header { file with
      info := file.info ++ FileEdit.keptLines [l]
      target := FileChange.nowhere })) := by
  rw [run_cons, step_of_ne_hunk (by simp [hs]), hl]
  simp [State.readHeader, State.amend, hs, State.moveTo, FileEdit.keptLines, Except.bind,
    FileChange.pushInfo]

/-- The lines that tell what kind of change it is leave the name of a side
that the file is not on to stand for no file. -/
theorem run_kind (s : State) {file : FileChange} (hs : s.place = .header file) (quotePath : Bool)
    (k : FileEdit.Kind) :
    run s (k.lines quotePath) = .ok (s.moveTo (.header
      { file with
        info := file.info ++ FileEdit.keptLines (k.lines quotePath)
        source := if k.hasSource then file.source else FileChange.nowhere
        target := if k.hasTarget then file.target else FileChange.nowhere })) := by
  cases k with
  | modified path modes => exact run_others s hs fun _ => HeaderLine.ofText_modeLines
  | created path mode => exact run_newFile s hs (HeaderLine.ofText_newFile mode)
  | deleted path mode => exact run_deletedFile s hs (HeaderLine.ofText_deletedFile mode)
  | renamed source target modes similarity =>
    refine run_others s hs fun l hl => ?_
    rcases List.mem_append.1 hl with hl | hl
    · exact HeaderLine.ofText_modeLines hl
    · exact HeaderLine.ofText_renameLines hl

/-- Whether the reader stands between hunks. -/
def State.IsBetween (s : State) : Prop :=
  ∀ file h source target, s.place ≠ .hunk file h source target

/-- The lines ahead of the names start the change that they tell. -/
theorem run_infoLines {s : State} (hs : s.IsBetween) {quotePath : Bool} {f : FileEdit}
    {a b : List Char}
    (hnames : HeaderLine.twoNames? (f.kind.source.sideName quotePath 'a' ++
      ' ' :: f.kind.target.sideName quotePath 'b' ++ ['\n']) = some (a, b)) :
    run s (f.infoLines quotePath)
      = .ok ⟨s.closed, some (String.ofList a), s.stamp, .header
          (.ofNames (FileEdit.keptLines (f.infoLines quotePath))
            (if f.kind.hasSource then String.ofList a else FileChange.nowhere)
            (if f.kind.hasTarget then String.ofList b else FileChange.nowhere))⟩ := by
  have hfirst : step s (f.firstLine quotePath ++ ['\n'])
      = .ok ⟨s.closed, some (String.ofList a), s.stamp, .header
          (.ofNames #[String.ofList (f.firstLine quotePath ++ ['\n'])] (String.ofList a)
            (String.ofList b))⟩ := by
    rw [step_of_ne_hunk hs, HeaderLine.ofText_firstLine hnames]
    rfl
  have hindex : ∀ l ∈ [f.indexLine], HeaderLine.ofText (l ++ ['\n']) = .other := by
    simpa using HeaderLine.ofText_indexLine f
  rw [FileEdit.infoLines, List.cons_append, run_cons, hfirst]
  show run _ _ = _
  rw [run_append, run_kind _ rfl]
  show run _ _ = _
  rw [run_others _ (State.moveTo_place ..) hindex]
  simp [State.moveTo, FileChange.ofNames, FileEdit.keptLines]

/-- The line that names the old side changes nothing about the file. -/
theorem step_sourceName {s : State} {file : FileChange} (hs : s.place = .header file)
    (hstamp : file.sourceStamp = none) (quotePath : Bool) (k : FileEdit.Kind) :
    step s (FileEdit.nameLine "--- " (k.sourceName quotePath) ++ ['\n'])
      = .ok ⟨s.done, some (String.ofList (k.sourceName quotePath)), none, .header file⟩ := by
  rw [step_of_ne_hunk (by simp [hs]),
    HeaderLine.ofText_sourceName FileEdit.Kind.inName_of_mem_sourceName]
  simp [State.readHeader, hs, ← hstamp]

/-- **The line that names the new side has to name the one that was
expected.** -/
theorem step_targetName {s : State} {file : FileChange} (hs : s.place = .header file)
    (hstamp : file.targetStamp = none) (quotePath : Bool) (k : FileEdit.Kind) :
    step s (FileEdit.nameLine "+++ " (k.targetName quotePath) ++ ['\n'])
      = if file.target = String.ofList (k.targetName quotePath) then .ok s
        else .error (.targetWithoutSource
          (String.ofList (FileEdit.nameLine "+++ " (k.targetName quotePath) ++ ['\n']))) := by
  rw [step_of_ne_hunk (by simp [hs]),
    HeaderLine.ofText_targetName FileEdit.Kind.inName_of_mem_targetName]
  have hsame : ({ s with place := .header file } : State) = s := by rw [← hs]
  simp [State.readHeader, State.readTarget, hs, ← hstamp, hsame]

/-- The names that the first line of a section is cut into: the new one is
right unless the path has a side mark in it. -/
theorem exists_twoNames (quotePath : Bool) (f : FileEdit) :
    ∃ a b, HeaderLine.twoNames? (f.kind.source.sideName quotePath 'a' ++
        ' ' :: f.kind.target.sideName quotePath 'b' ++ ['\n']) = some (a, b)
      ∧ (b = f.kind.target.sideName quotePath 'b' ↔ ¬ f.kind.target.HasSideMark) := by
  by_cases hmark : f.kind.target.HasSideMark
  · obtain ⟨a, b, hnames, hb⟩ :=
      @RepoPath.twoNames?_sideName_of_hasSideMark quotePath f.kind.source _ hmark
    exact ⟨a, b, hnames, by simp [hb, hmark]⟩
  · exact ⟨_, _, RepoPath.twoNames?_sideName _ _ hmark, by simp [hmark]⟩

/-- The line that names the new side finds the name that was expected unless
the first line of the section misleads. -/
theorem target_eq_iff {quotePath : Bool} {f : FileEdit} {b : List Char}
    (hb : b = f.kind.target.sideName quotePath 'b' ↔ ¬ f.kind.target.HasSideMark) :
    (if f.kind.hasTarget then String.ofList b else FileChange.nowhere)
        = String.ofList (f.kind.targetName quotePath) ↔ ¬ f.IsMisread := by
  unfold FileEdit.Kind.targetName FileEdit.IsMisread
  cases f.kind.hasTarget with
  | false => simp
  | true => simpa [String.ofList_inj] using hb

/-- **A file section is read as the change that it tells**, unless its first
line misleads; then it is refused at the line that names the new side. -/
theorem run_lines {s : State} (hs : s.IsBetween) (quotePath : Bool) (f : FileEdit) :
    run s (f.lines quotePath)
      = if f.IsMisread then .error (.targetWithoutSource
          (String.ofList (FileEdit.nameLine "+++ " (f.kind.targetName quotePath) ++ ['\n'])))
        else .ok ⟨s.closed, some (String.ofList (f.kind.sourceName quotePath)), none,
          .body (f.change quotePath)⟩ := by
  obtain ⟨a, b, hnames, hb⟩ := exists_twoNames quotePath f
  have ha : f.firstName quotePath = a := by rw [FileEdit.firstName, hnames]; rfl
  rw [FileEdit.lines, run_append, run_append, run_infoLines hs hnames]
  -- the file as the lines ahead of the names leave it
  generalize hfile : FileChange.ofNames (FileEdit.keptLines (f.infoLines quotePath))
    (if f.kind.hasSource then String.ofList a else FileChange.nowhere)
    (if f.kind.hasTarget then String.ofList b else FileChange.nowhere) = file
  have htarget : file.target = String.ofList (f.kind.targetName quotePath) ↔ ¬ f.IsMisread := by
    rw [← hfile]
    exact target_eq_iff hb
  show ((run _ _).bind _) = _
  rw [run_cons, step_sourceName rfl (by rw [← hfile]; rfl)]
  show ((run _ _).bind _) = _
  rw [run_cons, step_targetName rfl (by rw [← hfile]; rfl)]
  by_cases hf : f.IsMisread
  · rw [if_pos hf, if_neg fun h => htarget.1 h hf]
    rfl
  · rw [if_neg hf, if_pos (htarget.2 hf)]
    show run _ _ = _
    rw [CutScript.lines, run_excerpts _ (.inl rfl) _ _ f.cut.shown]
    have hchange :
        { file with hunks := file.hunks ++ f.cut.hunks.toArray } = f.change quotePath := by
      have htarget' := htarget.2 hf
      subst hfile
      simp [FileChange.ofNames, FileEdit.change, ha] at htarget' ⊢
      exact htarget'
    rw [← hchange]
    rfl

/-! ## Whole diffs -/

/-- The reader stands between hunks when it has read a section. -/
theorem isBetween_body {done : Array FileChange} {source stamp : Option String}
    {file : FileChange} : State.IsBetween ⟨done, source, stamp, .body file⟩ := by
  intro _ _ _ _ h
  cases h

/-- **Sections that do not mislead are read one after the other.** -/
theorem run_sections {s : State} (hs : s.IsBetween) (quotePath : Bool) {fs : List FileEdit}
    (hfs : ∀ f ∈ fs, ¬ f.IsMisread) :
    ∃ s' : State, run s (fs.flatMap (FileEdit.lines quotePath)) = .ok s' ∧ s'.IsBetween
      ∧ s'.closed = s.closed ++ (fs.map (FileEdit.change quotePath)).toArray := by
  induction fs generalizing s with
  | nil => exact ⟨s, rfl, hs, by simp⟩
  | cons f fs ih =>
    obtain ⟨s', hrun, hbetween, hclosed⟩ := ih
      (s := ⟨s.closed, some (String.ofList (f.kind.sourceName quotePath)), none,
        .body (f.change quotePath)⟩)
      isBetween_body fun g hg => hfs g (List.mem_cons_of_mem f hg)
    refine ⟨s', ?_, hbetween, ?_⟩
    · rw [List.flatMap_cons, run_append, run_lines hs, if_neg (hfs f List.mem_cons_self)]
      exact hrun
    · rw [hclosed]
      simp [State.closed, Place.file?]

/-- The complaint about the first section that misleads. -/
theorem run_sections_of_isMisread {s : State} (hs : s.IsBetween) (quotePath : Bool)
    {before after : List FileEdit} {f : FileEdit} (hbefore : ∀ g ∈ before, ¬ g.IsMisread)
    (hf : f.IsMisread) :
    run s ((before ++ f :: after).flatMap (FileEdit.lines quotePath))
      = .error (.targetWithoutSource
          (String.ofList (FileEdit.nameLine "+++ " (f.kind.targetName quotePath) ++ ['\n']))) := by
  obtain ⟨s', hrun, hbetween, -⟩ := run_sections hs quotePath hbefore
  rw [List.flatMap_append, List.flatMap_cons, run_append, hrun]
  show run _ _ = _
  rw [run_append, run_lines hbetween, if_pos hf]
  rfl

/-- Between hunks the end of the text completes the file that is open. -/
theorem finish_of_isBetween {s : State} (hs : s.IsBetween) : finish s = .ok s.closed := by
  unfold finish
  split
  · rename_i heq
    exact absurd heq (hs _ _ _ _)
  · rfl

end Reader

end ChangeReview
