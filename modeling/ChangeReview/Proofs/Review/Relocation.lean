import ChangeReview.Proofs.Review.Exclusion
import ChangeReview.Proofs.Review.Run

/-!
# Moving the repository moves the review

Take the same change in two directories, and let the checker find the same in
both. Every path of the one review is that of a file inside the one directory,
and the other review has the path of the same file inside the other
(`Path.Moved`). What a review does with paths it does alike in both: it takes
their endings, it compares them with each other, and it tries patterns on
them.

The patterns are the delicate part. They are tried on the whole path as well
as on the path inside the directory, and only the latter stays as it is when
the repository moves. The whole path starts with a slash, though, and a
pattern that starts with another character, one that stands for itself, never
matches it (`Path.isExcluded_join`). Nothing is asked of the directories: one
may lie in the other, and their names may look like patterns.
-/

namespace ChangeReview

/-! ## Results that go together -/

/-- Two results that are both errors or both values, and go together as such. -/
inductive Agree {ε α : Type} (E : ε → ε → Prop) (R : α → α → Prop) :
    Except ε α → Except ε α → Prop
  | error {e e' : ε} (h : E e e') : Agree E R (.error e) (.error e')
  | ok {a a' : α} (h : R a a') : Agree E R (.ok a) (.ok a')

namespace Agree

variable {ε ε' α β : Type} {E : ε → ε → Prop} {F : ε' → ε' → Prop} {R : α → α → Prop}
variable {S : β → β → Prop} {x x' : Except ε α}

theorem bind (h : Agree E R x x') {f f' : α → Except ε β}
    (hf : ∀ a a', R a a' → Agree E S (f a) (f' a')) : Agree E S (x >>= f) (x' >>= f') := by
  cases h with
  | error h => exact .error h
  | ok h => exact hf _ _ h

theorem map (h : Agree E R x x') {f f' : α → β} (hf : ∀ a a', R a a' → S (f a) (f' a')) :
    Agree E S (x.map f) (x'.map f') := by
  cases h with
  | error h => exact .error h
  | ok h => exact .ok (hf _ _ h)

theorem mapError (h : Agree E R x x') {f : ε → ε'} (hf : ∀ e e', E e e' → F (f e) (f e')) :
    Agree F R (x.mapError f) (x'.mapError f) := by
  cases h with
  | error h => exact .error (hf _ _ h)
  | ok h => exact .ok h

end Agree

/-! ## The same things in two directories -/

section Moved

variable (base base' : Path)

/-- The paths of the same file in two directories. -/
inductive Path.Moved : Path → Path → Prop
  | mk {x : Path} (h : x.IsInner) : Moved (base / x) (base' / x)

/-- Patches for the same file, with the same lines. -/
inductive Patch.Moved : Patch → Patch → Prop
  | mk {path path' : Path} {lines : List Int} {declared : Option Int}
      (h : Path.Moved base base' path path') : Moved ⟨path, lines, declared⟩ ⟨path', lines, declared⟩

/-- The names of the same file in two directories, or names that no file goes
by. -/
inductive FileName.Moved : FileName → FileName → Prop
  | path {p p' : Path} (h : Path.Moved base base' p p') : Moved (.path p) (.path p')
  | unpaired (s s' : WideString) : Moved (.unpaired s) (.unpaired s')

/-- Diagnostics that say the same of the same file, or of no file. -/
inductive Diagnostic.Moved : Diagnostic → Diagnostic → Prop
  | mk {file file' : Option FileName} {severity message : Option WideString}
      {startLine endLine : Option Int} (h : Option.Rel (FileName.Moved base base') file file') :
      Moved ⟨file, severity, startLine, endLine, message⟩
        ⟨file', severity, startLine, endLine, message⟩

/-- Messages that say the same of the same line of the same file. -/
inductive Message.Moved : Message → Message → Prop
  | mk {file file' : Path} {line : Int} {level text : Option WideString} {runner : String}
      (h : Path.Moved base base' file file') :
      Moved ⟨file.text, line, level, text, runner⟩ ⟨file'.text, line, level, text, runner⟩

/-- Lines of the same file that are listed more than once, equally often. -/
inductive DuplicateLine.Moved : DuplicateLine → DuplicateLine → Prop
  | mk {line : Int} {path path' : Path} {times : Nat} (h : Path.Moved base base' path path') :
      Moved ⟨line, path, times⟩ ⟨line, path', times⟩

/-- Failures of reviews for the same reason. -/
inductive Failure.Moved : Failure → Failure → Prop
  | notStarted (reason : String) : Moved (.notStarted reason) (.notStarted reason)
  | undecodable (e : Text.Utf8.DecodeError) :
      Moved (.read (.undecodable e)) (.read (.undecodable e))
  | report (e : ReportError) : Moved (.report e) (.report e)
  | placement {e e' : DuplicateLine} (h : DuplicateLine.Moved base base' e e') :
      Moved (.placement e) (.placement e')

/-- Checkers that find the same: neither writes a report, or the reports of both
are refused alike or list the same diagnostics. -/
inductive Child.Moved (room : Nat) : Child → Child → Prop
  | failed (reason : String) : Moved room (.failed reason) (.failed reason)
  | undecodable (e : Text.Utf8.DecodeError) : Moved room (.undecodable e) (.undecodable e)
  | wrote {checker checker' : Child} {report report' : String} (h : checker.Writes report)
      (h' : checker'.Writes report')
      (hparse : Agree Eq (List.Forall₂ (Diagnostic.Moved base base'))
        (Diagnostic.parse room report) (Diagnostic.parse room report')) :
      Moved room checker checker'

end Moved

variable {base base' : Path}

/-- What is equal in one directory is equal in the other. -/
theorem Path.Moved.eq_iff {p p' q q' : Path} (hp : Path.Moved base base' p p')
    (hq : Path.Moved base base' q q') : p = q ↔ p' = q' := by
  obtain ⟨hx⟩ := hp
  obtain ⟨hy⟩ := hq
  rw [join_inj hx.relative hy.relative, join_inj hx.relative hy.relative]

/-! ## Selecting -/

section Selecting

variable {excludes : List String} (hexcludes : ∀ pattern ∈ excludes, Glob.IsRelative pattern)
include hexcludes

/-- **What excludes a file of a directory** is what matches its path inside the
directory. -/
theorem Path.isExcluded_join (hbase : base.isAbsolute) {x : Path} (hx : x.root = .relative) :
    (base / x).isExcluded base excludes = excludes.any (Glob.isMatch · x.text) := by
  -- the whole path starts with a slash and the patterns do not
  have hwhole : excludes.any (Glob.isMatch · (base / x).text) = false :=
    List.any_eq_false.mpr fun pattern hpattern => Bool.eq_false_iff.mp
      ((hexcludes pattern hpattern).not_isMatch (head?_text (isAbsolute_join hbase hx)))
  rw [isExcluded_join_eq_or hbase hx, hwhole, Bool.or_false]

variable (hbase : base.isAbsolute) (hbase' : base'.isAbsolute)
include hbase hbase'

/-- A patch is selected in one directory if it is in the other. -/
theorem Patch.Moved.isSelected {p p' : Patch} (h : Patch.Moved base base' p p') :
    p.isSelected base excludes = p'.isSelected base' excludes := by
  obtain ⟨hpath⟩ := h
  obtain ⟨hx⟩ := hpath
  unfold Patch.isSelected Path.isEligible Path.suffix
  rw [Path.isExcluded_join hexcludes hbase hx.relative,
    Path.isExcluded_join hexcludes hbase' hx.relative, Path.name_join hx.relative hx.named,
    Path.name_join hx.relative hx.named]
  rfl

theorem Patch.Moved.selected {ps ps' : List Patch}
    (h : List.Forall₂ (Patch.Moved base base') ps ps') :
    List.Forall₂ (Patch.Moved base base') (ps.filter (·.isSelected base excludes))
      (ps'.filter (·.isSelected base' excludes)) :=
  List.rel_filter (fun _ _ hp => iff_of_eq (congrArg (· = true)
    (hp.isSelected hexcludes hbase hbase'))) h

end Selecting

/-! ## Placing -/

section Placing

variable {ps ps' : List Patch} (hps : List.Forall₂ (Patch.Moved base base') ps ps')
include hps

/-- The same lines of a file are found in a range. -/
theorem Patch.Moved.linesWithin {file file' : Path} (hfile : Path.Moved base base' file file')
    (first last : Int) :
    Patch.linesWithin ps file first last = Patch.linesWithin ps' file' first last := by
  unfold Patch.linesWithin
  induction hps with
  | nil => rfl
  | cons hp _ ih =>
    obtain ⟨hpath⟩ := hp
    simp only [List.filter_cons, hpath.eq_iff hfile]
    split
    · rw [List.flatMap_cons, List.flatMap_cons, ih]
    · exact ih

theorem Patch.Moved.lastWithin {file file' : Path} (hfile : Path.Moved base base' file file')
    (first last : Int) :
    Agree (DuplicateLine.Moved base base') Eq (Patch.lastWithin ps file first last)
      (Patch.lastWithin ps' file' first last) := by
  unfold Patch.lastWithin
  rw [Patch.Moved.linesWithin hps hfile]
  dsimp only
  split
  · exact .ok rfl
  · split
    · exact .error (.mk hfile)
    · exact .ok rfl

/-- Both diagnostics are placed on the same line, or neither is placed, or both
are refused. -/
theorem Diagnostic.Moved.place {d d' : Diagnostic} (h : Diagnostic.Moved base base' d d') :
    Agree (DuplicateLine.Moved base base')
      (Option.Rel fun found found' : Path × Int =>
        Path.Moved base base' found.1 found'.1 ∧ found.2 = found'.2)
      (d.place ps) (d'.place ps') := by
  obtain @⟨file, file', severity, message, startLine, endLine, hfile⟩ := h
  have hpath : Option.Rel (Path.Moved base base')
      (path? ⟨file, severity, startLine, endLine, message⟩)
      (path? ⟨file', severity, startLine, endLine, message⟩) := by
    cases hfile with
    | none => exact .none
    | some hname =>
      cases hname with
      | path hfile => exact .some hfile
      | unpaired => exact .none
  unfold Diagnostic.place
  generalize path? ⟨file, severity, startLine, endLine, message⟩ = path at hpath
  generalize path? ⟨file', severity, startLine, endLine, message⟩ = path' at hpath
  cases hpath with
  | none => exact .ok .none
  | some hfile =>
    cases startLine with
    | none => exact .ok .none
    | some first =>
      cases endLine with
      | none => exact .ok .none
      | some last =>
        refine (Patch.Moved.lastWithin hps hfile _ _).map fun line line' hline => ?_
        obtain rfl := hline
        cases line with
        | none => exact .none
        | some line => exact .some ⟨hfile, rfl⟩

theorem Diagnostic.Moved.message? {d d' : Diagnostic} (h : Diagnostic.Moved base base' d d')
    (runner : String) :
    Agree (DuplicateLine.Moved base base') (Option.Rel (Message.Moved base base'))
      (d.message? ps runner) (d'.message? ps' runner) := by
  refine (h.place hps).map fun found found' hfound => ?_
  obtain ⟨-⟩ := h
  cases hfound with
  | none => exact .none
  | @some found found' hfound =>
    obtain ⟨file, line⟩ := found
    obtain ⟨file', line'⟩ := found'
    obtain ⟨hfile, rfl⟩ := hfound
    exact .some (.mk hfile)

/-- **Diagnostics give messages that say the same**, or are refused for lines of
the same file. -/
theorem Diagnostic.Moved.messages {ds ds' : List Diagnostic}
    (hds : List.Forall₂ (Diagnostic.Moved base base') ds ds') (runner : String) :
    Agree (DuplicateLine.Moved base base') (List.Forall₂ (Message.Moved base base'))
      (Diagnostic.messages ps runner ds) (Diagnostic.messages ps' runner ds') := by
  induction hds with
  | nil => exact .ok .nil
  | cons hd _ ih =>
    refine (hd.message? hps runner).bind fun m m' hm => ih.bind fun ms ms' hms => .ok ?_
    refine List.rel_append ?_ hms
    cases hm with
    | none => exact .nil
    | some hm => exact .cons hm .nil

/-- **What a review comes to in the other directory**: the same commands, and
messages that say the same or a failure for the same reason. -/
theorem review_moved {room : Nat} {checker checker' : Child}
    (h : Child.Moved base base' room checker checker') (runner : String) :
    (review room ps runner checker).calls = (review room ps' runner checker').calls ∧
      Agree (Failure.Moved base base') (List.Forall₂ (Message.Moved base base'))
        (review room ps runner checker).result (review room ps' runner checker').result := by
  have hnil : ps = [] ↔ ps' = [] := by
    rw [← List.length_eq_zero_iff, hps.length_eq, List.length_eq_zero_iff]
  by_cases hne : ps = []
  · rw [hne, hnil.mp hne]
    exact ⟨rfl, .ok .nil⟩
  · have hne' := mt hnil.mpr hne
    refine ⟨by rw [review_calls, review_calls, if_neg hne, if_neg hne'], ?_⟩
    cases h with
    | failed reason =>
      rw [review_result_of_fails hne .failed, review_result_of_fails hne' .failed]
      exact .error (.notStarted reason)
    | undecodable e =>
      rw [review_result_of_fails hne .undecodable, review_result_of_fails hne' .undecodable]
      exact .error (.undecodable e)
    | wrote h h' hparse =>
      rw [review_result_of_writes hne h, review_result_of_writes hne' h']
      refine (hparse.mapError fun e e' he => he ▸ Failure.Moved.report e).bind fun ds ds' hds => ?_
      exact (Diagnostic.Moved.messages hps hds runner).mapError fun e e' he => .placement he

end Placing

/-! ## From the diff on -/

/-- The change is read alike in both directories: it is refused in both, or
tells of the same files. -/
theorem ChangedFile.parse_moved (base base' : Path) {diff : String}
    (hdiff : ∀ files, ChangedFile.parse diff none = .ok files → ∀ f ∈ files, f.path.IsInner) :
    Agree Eq
      (fun files files' => List.Forall₂ (Patch.Moved base base')
        (files.map Patch.ofChangedFile) (files'.map Patch.ofChangedFile))
      (ChangedFile.parse diff (some base)) (ChangedFile.parse diff (some base')) := by
  unfold ChangedFile.parse at hdiff ⊢
  cases hparse : FileChange.parse diff with
  | error e => exact .error rfl
  | ok changes =>
    rw [hparse] at hdiff
    refine .ok ?_
    rw [List.map_map, List.map_map, List.forall₂_map_left_iff, List.forall₂_map_right_iff,
      List.forall₂_same]
    exact fun f hf => .mk (.mk (hdiff _ rfl _ (List.mem_map_of_mem hf)))

/-- **Moving the repository moves the review.** Take two directories and a diff
that tells of files inside one, patterns that start with a character standing
for itself other than a slash, and checkers that find the same in both
directories. The diff is refused in both with the same words, or read in both,
and then a first run comes to the same: it starts the same commands, and it
fails for the same reason or says the same of the same files. -/
theorem Session.run_moved (hbase : base.isAbsolute) (hbase' : base'.isAbsolute) {diff : String}
    (hdiff : ∀ files, ChangedFile.parse diff none = .ok files → ∀ f ∈ files, f.path.IsInner)
    {excludes : List String} (hexcludes : ∀ pattern ∈ excludes, Glob.IsRelative pattern)
    {room : Nat} {checker checker' : Child}
    (hchecker : Child.Moved base base' room checker checker') (runner : String) :
    Agree Eq
      (fun files files' => ∃ o o',
        ((⟨files.map Patch.ofChangedFile, excludes, base, runner, room, none⟩ : Session).step
          (.run checker)).2 = .ran o ∧
        ((⟨files'.map Patch.ofChangedFile, excludes, base', runner, room, none⟩ : Session).step
          (.run checker')).2 = .ran o' ∧
        o.calls = o'.calls ∧
        Agree (Failure.Moved base base') (List.Forall₂ (Message.Moved base base'))
          o.result o'.result)
      (ChangedFile.parse diff (some base)) (ChangedFile.parse diff (some base')) := by
  have hread := ChangedFile.parse_moved base base' hdiff
  generalize ChangedFile.parse diff (some base) = read at hread
  generalize ChangedFile.parse diff (some base') = read' at hread
  cases hread with
  | error h => exact .error h
  | ok h =>
    refine .ok ⟨_, _, run_of_unchosen rfl checker, run_of_unchosen rfl checker', ?_⟩
    exact review_moved (Patch.Moved.selected hexcludes hbase hbase' h) hchecker runner

/-- A diff that adds a line to a file. -/
def ChangedFile.oneLineDiff : String := "--- a/a.py\n+++ b/a.py\n@@ -0,0 +1 @@\n+import os\n"

/-- The change that `ChangedFile.oneLineDiff` tells. -/
def FileChange.oneLine : FileChange :=
  ⟨#[], "a/a.py", none, "b/a.py", none, false, #[⟨0, 0, 1, 1, "", #[⟨.added, "import os\n"⟩]⟩]⟩

/-- A report on the first line of a file. -/
def Diagnostic.oneLineReport (file : String) : String :=
  let line := "\x7b\"line\":0\x7d"
  let range := "\x7b\"start\":" ++ line ++ ",\"end\":" ++ line ++ "\x7d"
  "\x7b\"diagnostics\":[\x7b\"file\":\"" ++ file ++ "\",\"range\":" ++ range ++ "\x7d]\x7d"

/-- From the root to a directory that goes by the name of a pattern: the file
in it is not excluded. -/
theorem Session.run_movedFromRoot :
    ∃ files files' o o',
      ChangedFile.parse ChangedFile.oneLineDiff (some (.ofString "/")) = .ok files ∧
      ChangedFile.parse ChangedFile.oneLineDiff (some (.ofString "/b*")) = .ok files' ∧
      ((⟨files.map Patch.ofChangedFile, ["b*"], .ofString "/", "p", 9, none⟩ : Session).step
        (.run (.exited (Diagnostic.oneLineReport "/a.py") "" 1))).2 = .ran o ∧
      ((⟨files'.map Patch.ofChangedFile, ["b*"], .ofString "/b*", "p", 9, none⟩ : Session).step
        (.run (.exited (Diagnostic.oneLineReport "/b*/a.py") "" 1))).2 = .ran o' ∧
      o.calls = o'.calls ∧ o.result = .ok [⟨"/a.py", 1, none, none, "p"⟩] ∧
      o'.result = .ok [⟨"/b*/a.py", 1, none, none, "p"⟩] := by
  have hinner : (Path.ofString "a.py").IsInner := ⟨by decide +kernel, by decide +kernel⟩
  have hread (root : Option Path) : ChangedFile.parse ChangedFile.oneLineDiff root
      = .ok [FileChange.oneLine.summary root] := by
    have hchanges : FileChange.parse ChangedFile.oneLineDiff = .ok #[FileChange.oneLine] := by
      decide +kernel
    unfold ChangedFile.parse
    rw [hchanges]
    rfl
  have hdiff (files : List ChangedFile)
      (h : ChangedFile.parse ChangedFile.oneLineDiff none = .ok files) :
      ∀ f ∈ files, f.path.IsInner := by
    rw [← Except.ok.inj ((hread none).symm.trans h)]
    exact List.forall_mem_singleton.mpr hinner
  have hexcludes : ∀ pattern ∈ ["b*"], Glob.IsRelative pattern :=
    List.forall_mem_singleton.mpr ⟨'b', rfl, by decide, by decide⟩
  have hparse : Diagnostic.parse 9 (Diagnostic.oneLineReport "/a.py")
      = .ok [⟨some (.path (.ofString "/" / .ofString "a.py")), none, some 0, some 0, none⟩] := by
    decide +kernel
  have hparse' : Diagnostic.parse 9 (Diagnostic.oneLineReport "/b*/a.py")
      = .ok [⟨some (.path (.ofString "/b*" / .ofString "a.py")), none, some 0, some 0, none⟩] := by
    decide +kernel
  have hchecker : Child.Moved (.ofString "/") (.ofString "/b*") 9
      (.exited (Diagnostic.oneLineReport "/a.py") "" 1)
      (.exited (Diagnostic.oneLineReport "/b*/a.py") "" 1) := by
    refine .wrote .exited .exited ?_
    rw [hparse, hparse']
    exact .ok (.cons (.mk (.some (.path (.mk hinner)))) .nil)
  have hmoved := Session.run_moved rfl rfl hdiff hexcludes hchecker "p"
  rw [hread, hread] at hmoved
  cases hmoved with
  | ok h =>
    obtain ⟨o, o', ho, ho', hcalls, -⟩ := h
    refine ⟨_, _, o, o', hread _, hread _, ho, ho', hcalls, ?_, ?_⟩
    · obtain rfl := Answer.ran.inj ho
      decide +kernel
    · obtain rfl := Answer.ran.inj ho'
      decide +kernel

end ChangeReview
