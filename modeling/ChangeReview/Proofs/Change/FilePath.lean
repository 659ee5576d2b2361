import ChangeReview.Proofs.Change.Recovery
import ChangeReview.Proofs.Path
import ChangeReview.Review.Selection

/-!
# The path of a changed file

A file goes by the name that its section gives it, less the mark of the side.
Where the path is written as it is, that name spells the path, and the file is
found under the root it is looked for (`RepoPath.ofString_chars`).

Where the path is written between quotes the reader takes off the mark and
leaves the quotes and what is escaped between them. The name is then the text
that was written, and spells another path: one with two quotes more in it than
the right one (`RepoPath.count_written`), for an escaped quote still holds one
quote and no other escape holds any. It also ends in a quote, so that the file
never has the ending of the files that are reviewed.
-/

namespace ChangeReview

namespace RepoPath

variable {quotePath : Bool}

/-- The path, whatever it is written as. -/
def toPath (p : RepoPath) : Path := ⟨.relative, p.names, fun n h => (p.proper n h).1⟩

/-- The path below a root, where one is given. -/
def below (root : Option Path) (p : RepoPath) : Path := root.elim p.toPath (· / p.toPath)

/-- Whether a path is written as it is. -/
def IsUnquoted (quotePath : Bool) (p : RepoPath) : Prop :=
  p.chars.all (isPlain quotePath) = true

instance (p : RepoPath) : Decidable (p.IsUnquoted quotePath) :=
  inferInstanceAs (Decidable (_ = true))

/-! ## Paths that are written as they are -/

theorem head?_chars (p : RepoPath) : p.chars.head? ≠ some '/' :=
  Path.head?_names fun n hn => (p.proper n hn).1

/-- **The text of a path spells it.** -/
theorem ofString_chars (p : RepoPath) : Path.ofString (String.ofList p.chars) = p.toPath := by
  refine Path.ext ?_ ?_
  · show Path.Root.ofText (String.ofList p.chars).toList = _
    rw [String.toList_ofList]
    exact Path.root_ofText p.head?_chars
  · rw [Path.names_ofString, String.toList_ofList]
    exact Path.filter_pieces_names fun n hn => (p.proper n hn).1

/-! ## Paths that are written between quotes -/

theorem written_eq_chars {p : RepoPath} (h : p.IsUnquoted quotePath) :
    p.written quotePath [] = p.chars := if_pos h

theorem written_eq_quoted {p : RepoPath} (h : ¬ p.IsUnquoted quotePath) :
    p.written quotePath [] = '"' :: p.chars.flatMap (escaped quotePath) ++ ['"'] := if_neg h

theorem sideName_eq_plain {p : RepoPath} (h : p.IsUnquoted quotePath) (side : Char) :
    p.sideName quotePath side = side :: '/' :: p.chars := if_pos h

theorem sideName_eq_quoted {p : RepoPath} (h : ¬ p.IsUnquoted quotePath) (side : Char) :
    p.sideName quotePath side
      = '"' :: side :: '/' :: p.chars.flatMap (escaped quotePath) ++ ['"'] := if_neg h

/-- A byte is written without quotes. -/
theorem quote_notMem_octal (b : UInt8) : '"' ∉ octal b := by
  have hdigit : ∀ n < 8, Text.digit n ≠ '"' := by decide
  have hb := b.toNat_lt
  unfold octal
  simp only [List.mem_cons, List.not_mem_nil, or_false, not_or]
  exact ⟨by decide, (hdigit _ (by omega)).symm, (hdigit _ (by omega)).symm,
    (hdigit _ (by omega)).symm⟩

/-- **What a character is written as holds a quote exactly if it is one.** -/
theorem count_escaped (c : Char) : (escaped quotePath c).count '"' = [c].count '"' := by
  unfold escaped
  split
  · rfl
  · split
    · next letter h =>
      unfold escape? at h
      split at h <;> cases h <;> rfl
    · next h =>
      have hc : c ≠ '"' := by
        rintro rfl
        cases h
      rw [List.count_cons_of_ne hc, List.count_nil, List.count_eq_zero, List.mem_flatMap]
      rintro ⟨b, -, hb⟩
      exact quote_notMem_octal b hb

/-- **Quotes around a path are two more than the path has.** -/
theorem count_written {p : RepoPath} (h : ¬ p.IsUnquoted quotePath) :
    (p.written quotePath []).count '"' = p.chars.count '"' + 2 := by
  have hescaped : (p.chars.flatMap (escaped quotePath)).count '"' = p.chars.count '"' := by
    induction p.chars with
    | nil => rfl
    | cons c cs ih =>
      rw [List.flatMap_cons, List.count_append, count_escaped, ih, ← List.count_append]
      rfl
  rw [written_eq_quoted h, List.count_append, List.count_cons_self, hescaped]
  rfl

/-- A quoted path spells another path. -/
theorem ofString_written_ne {p : RepoPath} (h : ¬ p.IsUnquoted quotePath) :
    Path.ofString (String.ofList (p.written quotePath [])) ≠ p.toPath := by
  have hcount (cs : List Char) := Path.sum_count_ofString (c := '"') (by decide) (by decide)
    (String.ofList cs)
  intro heq
  have hwritten := hcount (p.written quotePath [])
  have hchars := hcount p.chars
  rw [heq, String.toList_ofList, count_written h] at hwritten
  rw [ofString_chars, String.toList_ofList] at hchars
  omega

/-- A quoted path is a relative one, and has a name. -/
theorem root_ofString_written (p : RepoPath) :
    (Path.ofString (String.ofList (p.written quotePath []))).root = .relative := by
  show Path.Root.ofText (String.ofList (p.written quotePath [])).toList = _
  rw [String.toList_ofList]
  refine Path.root_ofText ?_
  by_cases h : p.IsUnquoted quotePath
  · rw [written_eq_chars h]
    exact p.head?_chars
  · rw [written_eq_quoted h]
    show some '"' ≠ some '/'
    decide

/-- A quoted path has not the ending of the files that are reviewed. -/
theorem suffix_ofString_written_ne {p : RepoPath} (h : ¬ p.IsUnquoted quotePath)
    (root : Option Path) :
    (root.elim (Path.ofString (String.ofList (p.written quotePath [])))
      (· / Path.ofString (String.ofList (p.written quotePath [])))).suffix ≠ sourceSuffix := by
  obtain ⟨last, hlast⟩ := Path.name_ofString_concat (c := '"') (by decide) (by decide)
    ('"' :: p.chars.flatMap (escaped quotePath))
  rw [← written_eq_quoted h] at hlast
  have hne : (Path.ofString (String.ofList (p.written quotePath []))).names ≠ [] := by
    intro hnil
    rw [Path.name, hnil] at hlast
    exact List.append_ne_nil_of_right_ne_nil _ (List.cons_ne_nil _ _) hlast.symm
  show _ ≠ String.ofList (['.', 'p'] ++ ['y'])
  have hquote : '"' ≠ 'y' := by decide
  cases root with
  | none => exact Path.suffix_ne_of_name hquote hlast
  | some root =>
    refine Path.suffix_ne_of_name hquote (Eq.trans ?_ hlast)
    exact congrArg String.toList (Path.name_join p.root_ofString_written hne)

/-- Below a root or not, a path is where its names say. -/
theorem eq_of_elim_eq {root : Option Path} {p q : Path} (hp : p.root = .relative)
    (hq : q.root = .relative)
    (h : root.elim p (· / p) = root.elim q (· / q)) : p = q := by
  cases root with
  | none => exact h
  | some root => exact (Path.join_inj hp hq).mp h

/-! ## The name that a section gives -/

/-- The name of a side is the written path once the mark of the side is taken
off, behind the opening quote or in front. -/
theorem bareName_sideName (p : RepoPath) :
    FileChange.bareName (p.sideName quotePath 'a') = p.written quotePath [] := by
  by_cases h : p.IsUnquoted quotePath
  · rw [sideName_eq_plain h, written_eq_chars h, FileChange.bareName, if_neg (by simp)]
    rfl
  · have hlast : ('"' :: 'a' :: '/' :: p.chars.flatMap (escaped quotePath) ++ ['"']).getLast?
        = some '"' := List.getLast?_concat
    have hmiddle : (List.drop 1 ('"' :: 'a' :: '/' :: p.chars.flatMap (escaped quotePath)
        ++ ['"'])).dropLast = 'a' :: '/' :: p.chars.flatMap (escaped quotePath) :=
      List.dropLast_concat
    rw [sideName_eq_quoted h, written_eq_quoted h, FileChange.bareName, if_pos ⟨rfl, hlast⟩,
      hmiddle]
    rfl

/-- The names of the two sides are the same behind two characters. -/
theorem drop_sideName (p : RepoPath) :
    (p.sideName quotePath 'a').drop 2 = (p.sideName quotePath 'b').drop 2 := by
  by_cases h : p.IsUnquoted quotePath
  · rw [sideName_eq_plain h, sideName_eq_plain h]
    rfl
  · rw [sideName_eq_quoted h, sideName_eq_quoted h]
    rfl

end RepoPath

/-- **A modified file goes by its path as it is written**, quotes and escapes
included. -/
theorem FileEdit.name_change (quotePath : Bool) {f : FileEdit} {p : RepoPath}
    {modes : Option (FileMode × FileMode)} (hf : f.kind = .modified p modes)
    (hmark : ¬ p.HasSideMark) :
    (f.change quotePath).name = String.ofList (p.written quotePath []) := by
  have hfirst : f.firstName quotePath = p.sideName quotePath 'a' := by
    rw [firstName, hf]
    show ((HeaderLine.twoNames? (p.sideName quotePath 'a' ++
      ' ' :: p.sideName quotePath 'b' ++ ['\n'])).map Prod.fst).getD [] = _
    rw [RepoPath.twoNames?_sideName p p hmark]
    rfl
  have hsource : (f.change quotePath).source = String.ofList (p.sideName quotePath 'a') := by
    rw [change, hfirst, hf]
    rfl
  have htarget : (f.change quotePath).target = String.ofList (p.sideName quotePath 'b') := by
    rw [change, hf]
    rfl
  have hrename : (f.change quotePath).isRename = false := by
    rw [FileChange.isRename, hsource, htarget, String.toList_ofList, String.toList_ofList,
      p.drop_sideName]
    simp
  have hthere : String.ofList (p.sideName quotePath 'a') ≠ FileChange.nowhere :=
    HeaderLine.ne_nowhere_of_isSide (by decide) (by decide) (p.isSide_sideName (by decide))
  rw [FileChange.name, hrename, hsource, decide_eq_false hthere]
  show String.ofList (FileChange.bareName (String.ofList (p.sideName quotePath 'a')).toList) = _
  rw [String.toList_ofList, p.bareName_sideName]

/-- A modified file is read with the path that its written name spells. -/
theorem ChangedFile.parse_render_modified (quotePath : Bool) (root : Option Path) {f : FileEdit}
    {p : RepoPath} {modes : Option (FileMode × FileMode)} (hf : f.kind = .modified p modes)
    (hmark : ¬ p.HasSideMark) :
    ∃ file, parse (FileEdit.render quotePath [f]) root = .ok [file] ∧
      file.path = root.elim (Path.ofString (String.ofList (p.written quotePath [])))
        (· / Path.ofString (String.ofList (p.written quotePath []))) := by
  have hread : ¬ f.IsMisread := by
    rw [FileEdit.IsMisread, hf]
    exact fun h => hmark h.2
  refine ⟨(f.change quotePath).summary root, ?_, ?_⟩
  · rw [parse, FileChange.parse_render quotePath (by simpa using hread)]
    rfl
  · rw [← f.name_change quotePath hf hmark]
    rfl

/-- A modified file with a misleading path is not read at all. -/
theorem ChangedFile.parse_render_of_hasSideMark (quotePath : Bool) (root : Option Path)
    {f : FileEdit} {p : RepoPath} {modes : Option (FileMode × FileMode)}
    (hf : f.kind = .modified p modes) (hmark : p.HasSideMark) :
    parse (FileEdit.render quotePath [f]) root = .error (.targetWithoutSource
      (String.ofList (FileEdit.nameLine "+++ " (p.sideName quotePath 'b') ++ ['\n']))) := by
  have hmisread : f.IsMisread := by
    rw [FileEdit.IsMisread, hf]
    exact ⟨rfl, hmark⟩
  have hparse : FileChange.parse (FileEdit.render quotePath ([] ++ f :: [])) = _ :=
    FileChange.parse_render_of_isMisread quotePath (by simp) hmisread
  rw [List.nil_append, hf] at hparse
  rw [parse, hparse]
  rfl

/-- **Which paths are read as they are.** Of a diff that modifies one file,
the file is found at its own path below the root exactly if the path is
written without quotes and misleads nobody about where a name ends. A path
that does mislead has the diff refused. One that is written between quotes is
taken by its written form, quotes and escapes included, and so the file is
none of those that reviews look at, whatever ending it has. -/
theorem ChangedFile.path_parse_render (quotePath : Bool) (root : Option Path) (f : FileEdit)
    (p : RepoPath) (modes : Option (FileMode × FileMode)) :
    let diff := FileEdit.render quotePath [{ f with kind := .modified p modes }]
    let written := Path.ofString (String.ofList (p.written quotePath []))
    ((∃ file, parse diff root = .ok [file] ∧ file.path = p.below root)
        ↔ ¬ p.HasSideMark ∧ p.IsUnquoted quotePath) ∧
      (p.HasSideMark → parse diff root = .error (.targetWithoutSource
        (String.ofList (FileEdit.nameLine "+++ " (p.sideName quotePath 'b') ++ ['\n'])))) ∧
      (¬ p.HasSideMark → ∃ file, parse diff root = .ok [file] ∧
        file.path = root.elim written (· / written) ∧
        (¬ p.IsUnquoted quotePath →
          ∀ cwd excludes, file.path.isEligible cwd excludes = false)) := by
  intro diff written
  have hmisread (hmark : p.HasSideMark) :=
    parse_render_of_hasSideMark quotePath root (f := { f with kind := .modified p modes }) rfl hmark
  have hread (hmark : ¬ p.HasSideMark) :=
    parse_render_modified quotePath root (f := { f with kind := .modified p modes }) rfl hmark
  refine ⟨⟨?_, ?_⟩, hmisread, fun hmark => ?_⟩
  · rintro ⟨file, hparse, hpath⟩
    have hmark : ¬ p.HasSideMark := by
      intro hmark
      cases hparse.symm.trans (hmisread hmark)
    refine ⟨hmark, ?_⟩
    by_contra hquoted
    obtain ⟨file', hparse', hpath'⟩ := hread hmark
    obtain rfl : file = file' := by
      rw [hparse] at hparse'
      exact (List.cons.inj (Except.ok.inj hparse')).1
    exact RepoPath.ofString_written_ne hquoted
      (RepoPath.eq_of_elim_eq p.root_ofString_written rfl (hpath'.symm.trans hpath))
  · rintro ⟨hmark, hplain⟩
    obtain ⟨file, hparse, hpath⟩ := hread hmark
    refine ⟨file, hparse, ?_⟩
    rw [hpath, RepoPath.written_eq_chars hplain, p.ofString_chars]
    rfl
  · obtain ⟨file, hparse, hpath⟩ := hread hmark
    refine ⟨file, hparse, hpath, fun hquoted cwd excludes => ?_⟩
    have hsuffix := RepoPath.suffix_ofString_written_ne hquoted root
    rw [← hpath] at hsuffix
    rw [Path.isEligible, beq_eq_false_iff_ne.mpr hsuffix]
    rfl

/-- The change of a file `café.py` that puts a line in the place of its only
one. -/
def FileEdit.accented : FileEdit :=
  { FileEdit.inSpacedDirectory with kind := .modified ⟨["café.py"], by decide, by decide⟩ none }

/-- **The file `café.py` is read as another one**, whose name has quotes around
it and the bytes of the accented letter spelled out. -/
theorem ChangedFile.parse_render_accented :
    FileEdit.render true [FileEdit.accented]
        = "diff --git \"a/caf\\303\\251.py\" \"b/caf\\303\\251.py\"\nindex 1..2\n"
          ++ "--- \"a/caf\\303\\251.py\"\n+++ \"b/caf\\303\\251.py\"\n@@ -1 +1 @@\n-a\n+b\n" ∧
      ∃ file, parse (FileEdit.render true [FileEdit.accented]) (some (.ofString "/repo")) = .ok [file]
        ∧ file.path = .ofString "/repo/\"caf\\303\\251.py\""
        ∧ file.path ≠ .ofString "/repo/café.py" := by
  refine ⟨by decide +kernel, ?_⟩
  obtain ⟨file, hparse, hpath⟩ := parse_render_modified true (some (.ofString "/repo"))
    (f := FileEdit.accented) rfl (by decide)
  refine ⟨file, hparse, ?_⟩
  rw [hpath]
  decide +kernel

end ChangeReview
