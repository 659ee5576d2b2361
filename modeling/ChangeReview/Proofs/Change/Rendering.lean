import ChangeReview.Proofs.Change.EditScript
import ChangeReview.Proofs.Change.SideName
import ChangeReview.Text.Hex

/-!
# Diffs as version control writes them

A diff is written file by file. A file section names the file on both
sides, says in a few lines what kind of change it is, names the two sides
again, and goes on with one hunk for each excerpt of the edit script
(`FileEdit.lines`). A line of a hunk is a mark and a text, so that the text
of a file may look like any other line of a diff; only the two lengths in
the hunk's header tell where the hunk ends.

Beside the lines stands what they say: the hunk that an excerpt writes
(`Excerpt.hunk`) and the change that a file section writes
(`FileEdit.change`).
-/

namespace ChangeReview

/-- The mode of a file, in octal digits. -/
structure FileMode where
  digits : List (Fin 8)
  nonempty : digits ≠ []

/-- How a file takes part in a change. -/
inductive FileEdit.Kind where
  | modified (path : RepoPath) (modes : Option (FileMode × FileMode))
  | created (path : RepoPath) (mode : FileMode)
  | deleted (path : RepoPath) (mode : FileMode)
  | renamed (source target : RepoPath) (modes : Option (FileMode × FileMode)) (similarity : Nat)

/-- **A change to a file**: its kind, the names of the two contents, and the
edit script between them with its cut into excerpts. -/
structure FileEdit where
  kind : FileEdit.Kind
  oldContent : List (Fin 16)
  newContent : List (Fin 16)
  contentMode : Option FileMode
  cut : CutScript

/-! ## Hunks -/

/-- The character that an edit is marked with in a hunk. -/
def Edit.Action.sign : Edit.Action → Char
  | .keep => ' '
  | .delete => '-'
  | .insert => '+'

/-- The mark that an edit is given by the reader. -/
def Edit.Action.mark : Edit.Action → Mark
  | .keep => .context
  | .delete => .removed
  | .insert => .added

/-- The remark that the line before lacks its line end. -/
def noLineEndRemark : List Char := "\\ No newline at end of file".toList

/-- An edit as the lines of a hunk. -/
def Edit.lines (e : Edit) : List (List Char) :=
  (e.action.sign :: e.text.chars) :: if e.noLineEnd then [noLineEndRemark] else []

/-- What the lines of an edit say. -/
def Edit.bodyLines (e : Edit) : List BodyLine :=
  ⟨e.action.mark, String.ofList (e.text.chars ++ ['\n'])⟩ ::
    if e.noLineEnd then [⟨.noLineEnd, " No newline at end of file\n"⟩] else []

/-- Where a stretch of lines starts that so many lines stand before: at its
first line, or, where it has no lines, at the line before it. -/
def stretchStart (before length : Nat) : Nat := if length = 0 then before else before + 1

/-- A stretch of lines as a header gives it; a length of one may be left
out. -/
def stretch (start length : Nat) (brief : Bool) : List Char :=
  Text.digits start ++ if brief && length == 1 then [] else ',' :: Text.digits length

namespace Excerpt

/-- The hunk that an excerpt gives, with so many lines before it on either
side. -/
def hunk (old new : Nat) (x : Excerpt) : Hunk where
  sourceStart := stretchStart old (Edit.oldLength x.edits)
  sourceLength := Edit.oldLength x.edits
  targetStart := stretchStart new (Edit.newLength x.edits)
  targetLength := Edit.newLength x.edits
  heading := String.ofList x.heading.chars
  lines := (x.edits.flatMap Edit.bodyLines).toArray

/-- The header line of the hunk. -/
def header (old new : Nat) (x : Excerpt) : List Char :=
  let h := x.hunk old new
  "@@ -".toList ++ stretch h.sourceStart h.sourceLength x.briefOld ++ " +".toList ++
    stretch h.targetStart h.targetLength x.briefNew ++ " @@".toList ++
    if x.heading.chars = [] then [] else ' ' :: x.heading.chars

/-- The lines of the hunk. -/
def lines (old new : Nat) (x : Excerpt) : List (List Char) :=
  x.header old new :: x.edits.flatMap Edit.lines

/-- The hunks of a script from an excerpt on. -/
def hunks : Nat → Nat → List Excerpt → List Hunk
  | _, _, [] => []
  | old, new, x :: xs =>
    x.hunk old new :: hunks (old + Edit.oldLength x.script) (new + Edit.newLength x.script) xs

/-- The lines of all hunks of a script from an excerpt on. -/
def linesOf : Nat → Nat → List Excerpt → List (List Char)
  | _, _, [] => []
  | old, new, x :: xs =>
    x.lines old new ++
      linesOf (old + Edit.oldLength x.script) (new + Edit.newLength x.script) xs

end Excerpt

/-- The hunks that a cut script gives. -/
def CutScript.hunks (s : CutScript) : List Hunk :=
  Excerpt.hunks s.lead.length s.lead.length s.excerpts

/-- The lines of all hunks of a cut script. -/
def CutScript.lines (s : CutScript) : List (List Char) :=
  Excerpt.linesOf s.lead.length s.lead.length s.excerpts

/-! ## File sections -/

/-- A mode as it is written. -/
def FileMode.chars (m : FileMode) : List Char := m.digits.map fun d : Fin 8 => Text.digit d.val

namespace FileEdit

namespace Kind

/-- The path on the old side. -/
def source : Kind → RepoPath
  | .modified path _ | .created path _ | .deleted path _ => path
  | .renamed source .. => source

/-- The path on the new side. -/
def target : Kind → RepoPath
  | .modified path _ | .created path _ | .deleted path _ => path
  | .renamed _ target .. => target

/-- Whether the file is on the old side. -/
def hasSource : Kind → Bool
  | .created .. => false
  | _ => true

/-- Whether the file is on the new side. -/
def hasTarget : Kind → Bool
  | .deleted .. => false
  | _ => true

/-- The name of the old side. -/
def sourceName (quotePath : Bool) (k : Kind) : List Char :=
  if k.hasSource then k.source.sideName quotePath 'a' else FileChange.nowhere.toList

/-- The name of the new side. -/
def targetName (quotePath : Bool) (k : Kind) : List Char :=
  if k.hasTarget then k.target.sideName quotePath 'b' else FileChange.nowhere.toList

/-- The lines for a change of mode. -/
def modeLines : Option (FileMode × FileMode) → List (List Char)
  | none => []
  | some (old, new) => ["old mode ".toList ++ old.chars, "new mode ".toList ++ new.chars]

/-- The lines that tell the two names of a renamed file, and how much of it
is still the same. A path is quoted in them as everywhere, but without a
side. -/
def renameLines (quotePath : Bool) (source target : RepoPath) (similarity : Nat) :
    List (List Char) :=
  ["similarity index ".toList ++ Text.digits similarity ++ ['%'],
    "rename from ".toList ++ source.written quotePath [],
    "rename to ".toList ++ target.written quotePath []]

/-- The lines that tell what kind of change it is. -/
def lines (quotePath : Bool) : Kind → List (List Char)
  | .modified _ modes => modeLines modes
  | .created _ mode => ["new file mode ".toList ++ mode.chars]
  | .deleted _ mode => ["deleted file mode ".toList ++ mode.chars]
  | .renamed source target modes similarity =>
    modeLines modes ++ renameLines quotePath source target similarity

end Kind

/-- The line that starts the section. -/
def firstLine (quotePath : Bool) (f : FileEdit) : List Char :=
  "diff --git ".toList ++ (f.kind.source.sideName quotePath 'a' ++
    ' ' :: f.kind.target.sideName quotePath 'b')

/-- The line with the names of the two contents. -/
def indexLine (f : FileEdit) : List Char :=
  "index ".toList ++ f.oldContent.map (fun d : Fin 16 => Text.Hex.digit d.val) ++ "..".toList ++
    f.newContent.map (fun d : Fin 16 => Text.Hex.digit d.val) ++
    f.contentMode.elim [] fun m => ' ' :: m.chars

/-- A line that names a side. A name with a space in it is closed by a tab. -/
def nameLine (mark : String) (name : List Char) : List Char :=
  mark.toList ++ name ++ if ' ' ∈ name then ['\t'] else []

/-- The lines ahead of the names. -/
def infoLines (quotePath : Bool) (f : FileEdit) : List (List Char) :=
  f.firstLine quotePath :: f.kind.lines quotePath ++ [f.indexLine]

/-- The lines of a file section. -/
def lines (quotePath : Bool) (f : FileEdit) : List (List Char) :=
  f.infoLines quotePath ++
    [nameLine "--- " (f.kind.sourceName quotePath),
      nameLine "+++ " (f.kind.targetName quotePath)] ++
    f.cut.lines

/-- Whether the first line of the section misleads about the name that the
file has now. -/
def IsMisread (f : FileEdit) : Prop := f.kind.hasTarget = true ∧ f.kind.target.HasSideMark

instance (f : FileEdit) : Decidable f.IsMisread :=
  inferInstanceAs (Decidable (_ ∧ _))

/-- The name that the first line of the section gives the old side. -/
def firstName (quotePath : Bool) (f : FileEdit) : List Char :=
  ((HeaderLine.twoNames? (f.kind.source.sideName quotePath 'a' ++
    ' ' :: f.kind.target.sideName quotePath 'b' ++ ['\n'])).map Prod.fst).getD []

/-- Lines as they are kept for a file. -/
def keptLines (ls : List (List Char)) : Array String :=
  (ls.map fun l => String.ofList (l ++ ['\n'])).toArray

/-- **The change that a file section tells.** The old side goes by the name
in the first line. -/
def change (quotePath : Bool) (f : FileEdit) : FileChange where
  info := keptLines (f.infoLines quotePath)
  source := if f.kind.hasSource then String.ofList (f.firstName quotePath) else FileChange.nowhere
  sourceStamp := none
  target := String.ofList (f.kind.targetName quotePath)
  targetStamp := none
  binary := false
  hunks := f.cut.hunks.toArray

/-- **A diff as version control writes it**, section by section. -/
def render (quotePath : Bool) (fs : List FileEdit) : String :=
  String.ofList ((fs.flatMap (lines quotePath)).flatMap (· ++ ['\n']))

end FileEdit

/-! ## Lines

What is written is cut into lines where it was put together from lines,
since no line holds a line feed. -/

section Lines

/-- The name of a side fits on a line, also where the file is not on it. -/
theorem FileEdit.Kind.inName_of_mem_sourceName {quotePath : Bool} {k : FileEdit.Kind} :
    ∀ c ∈ k.sourceName quotePath, HeaderLine.inName c = true := by
  unfold sourceName
  split
  · exact RepoPath.inName_of_mem_sideName (by decide) _
  · exact List.all_eq_true.mp rfl

theorem FileEdit.Kind.inName_of_mem_targetName {quotePath : Bool} {k : FileEdit.Kind} :
    ∀ c ∈ k.targetName quotePath, HeaderLine.inName c = true := by
  unfold targetName
  split
  · exact RepoPath.inName_of_mem_sideName (by decide) _
  · exact List.all_eq_true.mp rfl

theorem lineFeed_notMem_of_inName {cs : List Char} (h : ∀ c ∈ cs, HeaderLine.inName c = true) :
    '\n' ∉ cs := fun hc => absurd (h _ hc) (by decide)

theorem lineFeed_notMem_digits (n : Nat) : '\n' ∉ Text.digits n := fun h =>
  absurd (Text.isDigit_of_mem_digits h) (by decide)

theorem FileMode.lineFeed_notMem (m : FileMode) : '\n' ∉ m.chars := by
  have hdigit : ∀ d : Fin 8, Text.digit d.val ≠ '\n' := by decide
  intro h
  obtain ⟨d, -, hd⟩ := List.mem_map.1 h
  exact hdigit d hd

theorem Edit.lineFeed_notMem {e : Edit} {l : List Char} (h : l ∈ e.lines) : '\n' ∉ l := by
  have hsign : '\n' ≠ e.action.sign := by cases e.action <;> decide
  have hremark : '\n' ∉ noLineEndRemark := by decide
  unfold Edit.lines at h
  rcases List.mem_cons.1 h with rfl | h
  · rw [List.mem_cons, not_or]
    exact ⟨hsign, e.text.unbroken⟩
  · split at h
    · rw [List.mem_singleton.1 h]
      exact hremark
    · cases h

theorem lineFeed_notMem_stretch (start length : Nat) (brief : Bool) :
    '\n' ∉ stretch start length brief := by
  unfold stretch
  split <;> simp [lineFeed_notMem_digits]

theorem Excerpt.lineFeed_notMem {old new : Nat} {xs : List Excerpt} {l : List Char}
    (h : l ∈ linesOf old new xs) : '\n' ∉ l := by
  induction xs generalizing old new with
  | nil => cases h
  | cons x xs ih =>
    rw [linesOf, lines, List.mem_append, List.mem_cons] at h
    obtain (rfl | h) | h := h
    · have hheading : '\n' ∉ if x.heading.chars = [] then [] else ' ' :: x.heading.chars := by
        split <;> simp [x.heading.unbroken]
      unfold header
      simp only [List.mem_append, not_or]
      exact ⟨⟨⟨⟨⟨by decide, lineFeed_notMem_stretch _ _ _⟩, by decide⟩,
        lineFeed_notMem_stretch _ _ _⟩, by decide⟩, hheading⟩
    · obtain ⟨e, -, hl⟩ := List.mem_flatMap.1 h
      exact Edit.lineFeed_notMem hl
    · exact ih h

theorem FileEdit.lineFeed_notMem_modeLines {modes : Option (FileMode × FileMode)} {l : List Char}
    (h : l ∈ Kind.modeLines modes) : '\n' ∉ l := by
  match modes with
  | none => cases h
  | some (old, new) =>
    simp only [Kind.modeLines, List.mem_cons, List.not_mem_nil, or_false] at h
    obtain rfl | rfl := h
    · simp [FileMode.lineFeed_notMem]
    · simp [FileMode.lineFeed_notMem]

theorem FileEdit.lineFeed_notMem_kind {quotePath : Bool} {k : Kind} {l : List Char}
    (h : l ∈ k.lines quotePath) : '\n' ∉ l := by
  have hpath : ∀ p : RepoPath, '\n' ∉ p.written quotePath [] := fun p =>
    lineFeed_notMem_of_inName (RepoPath.inName_of_mem_written (by simp) p)
  cases k with
  | modified path modes => exact lineFeed_notMem_modeLines h
  | created path mode =>
    rw [List.mem_singleton.1 h]
    simp [FileMode.lineFeed_notMem]
  | deleted path mode =>
    rw [List.mem_singleton.1 h]
    simp [FileMode.lineFeed_notMem]
  | renamed source target modes similarity =>
    rcases List.mem_append.1 h with h | h
    · exact lineFeed_notMem_modeLines h
    · simp only [Kind.renameLines, List.mem_cons, List.not_mem_nil, or_false] at h
      obtain rfl | rfl | rfl := h <;> simp [lineFeed_notMem_digits, hpath]

theorem FileEdit.lineFeed_notMem_indexLine (f : FileEdit) : '\n' ∉ f.indexLine := by
  have hdigit : ∀ d : Fin 16, Text.Hex.digit d.val ≠ '\n' := by decide
  have hcontent : ∀ ds : List (Fin 16), '\n' ∉ ds.map fun d => Text.Hex.digit d.val := by
    intro ds h
    obtain ⟨d, -, hd⟩ := List.mem_map.1 h
    exact hdigit d hd
  have hmode : '\n' ∉ f.contentMode.elim [] fun m => ' ' :: m.chars := by
    cases f.contentMode with
    | none => simp
    | some m => simp [m.lineFeed_notMem]
  unfold indexLine
  simp only [List.mem_append, not_or]
  exact ⟨⟨⟨⟨by decide, hcontent _⟩, by decide⟩, hcontent _⟩, hmode⟩

theorem FileEdit.lineFeed_notMem_nameLine {mark : String} (hmark : '\n' ∉ mark.toList)
    {name : List Char} (h : ∀ c ∈ name, HeaderLine.inName c = true) :
    '\n' ∉ nameLine mark name := by
  unfold nameLine
  split <;> simp [hmark, lineFeed_notMem_of_inName h]

/-- **A line of a file section is one line.** -/
theorem FileEdit.lineFeed_notMem {quotePath : Bool} {f : FileEdit} {l : List Char}
    (h : l ∈ f.lines quotePath) : '\n' ∉ l := by
  unfold lines infoLines at h
  simp only [List.mem_append, List.mem_cons, List.not_mem_nil, or_false] at h
  obtain (((rfl | h) | rfl) | (rfl | rfl)) | h := h
  · unfold firstLine
    rw [List.mem_append, not_or]
    exact ⟨by decide, lineFeed_notMem_of_inName (RepoPath.inName_sideNames _ _)⟩
  · exact lineFeed_notMem_kind h
  · exact f.lineFeed_notMem_indexLine
  · exact lineFeed_notMem_nameLine (by decide) Kind.inName_of_mem_sourceName
  · exact lineFeed_notMem_nameLine (by decide) Kind.inName_of_mem_targetName
  · exact Excerpt.lineFeed_notMem h

end Lines

end ChangeReview
