import Mathlib.Data.List.Pairwise
import Mathlib.Data.List.Nodup
import Mathlib.Data.List.Flatten
import ChangeReview.Proofs.Change.Numbering
import ChangeReview.Review.Placement

/-!
# Only overlapping hunks make a placement fail

A placement is refused where the line it would go to is listed twice, and a
line that a diff lists twice must come from somewhere. It cannot come from a
single hunk, for the numbers of a hunk go up. So it comes from two hunks of
files that are found at the same path, and since the numbers of a hunk lie in
the stretch that its header gives, the two stretches have this line in
common. A diff whose hunks keep apart is therefore safe for every diagnostic
(`ChangedFile.isNumbered_of_parse`).

Which files the two hunks belong to is of no importance, only where these are
found: a diff may tell of one file twice. Hence all hunks of a diff are listed
together, each with the path of its file (`FileChange.locatedHunks`).
-/

namespace ChangeReview

/-! ## Lines that are listed twice -/

/-- What is found twice in a row of lists, none of which repeats itself, is
found in two of them. -/
theorem exists_pair_of_count_flatMap {α β : Type} [DecidableEq β] {f : α → List β} {xs : List α}
    {b : β} (hnodup : ∀ x ∈ xs, (f x).Nodup) (h : 1 < (xs.flatMap f).count b) :
    ∃ x y, [x, y].Sublist xs ∧ b ∈ f x ∧ b ∈ f y := by
  by_contra hnone
  have hapart : (xs.flatMap fun x => (f x).filter (· = b)).Nodup := by
    refine List.nodup_flatMap.mpr ⟨fun x hx => (hnodup x hx).filter _, ?_⟩
    refine List.pairwise_iff_forall_sublist.mpr fun {x y} hxy c hcx hcy => hnone ⟨x, y, hxy, ?_⟩
    obtain ⟨hx, hc⟩ := List.mem_filter.mp hcx
    obtain rfl : c = b := of_decide_eq_true hc
    exact ⟨hx, (List.mem_filter.mp hcy).1⟩
  have hcount := List.nodup_iff_count_le_one.mp hapart b
  rw [← List.filter_flatMap, List.count_filter (by simp)] at hcount
  omega

/-- A placement is refused only on a line of the patches of the file that is
listed more than once. -/
theorem Diagnostic.place_eq_error {patches : List Patch} {d : Diagnostic} {e : DuplicateLine}
    (h : d.place patches = .error e) :
    1 < ((patches.filter fun p => p.path = e.path).flatMap Patch.lines).count e.line := by
  unfold place at h
  split at h
  · next file first last _ _ _ =>
    cases hlast : Patch.lastWithin patches file (first + 1) (last + 1) with
    | ok line =>
      rw [hlast] at h
      cases h
    | error e' =>
      rw [hlast] at h
      cases h
      unfold Patch.lastWithin at hlast
      dsimp only at hlast
      split at hlast
      · cases hlast
      · split at hlast
        · next line _ hmany =>
          cases hlast
          refine lt_of_lt_of_le hmany ?_
          unfold Patch.linesWithin
          rw [← List.filter_flatMap]
          exact List.filter_sublist.count_le line
        · cases hlast
  · cases h

/-! ## The hunks of a diff -/

namespace FileChange

/-- All hunks of some changes in their order, each with the path its file is
found at. -/
def locatedHunks (root : Option Path) (fs : List FileChange) : List (Path × Hunk) :=
  fs.flatMap fun f => f.hunks.toList.map ((f.summary root).path, ·)

/-- Whether the hunks keep apart: of two of them that are found at the same
path, no line lies in the stretches of both. -/
def AreApart (root : Option Path) (fs : List FileChange) : Prop :=
  (locatedHunks root fs).Pairwise fun x y => x.1 = y.1 → ∀ n, ¬ (x.2.Covers n ∧ y.2.Covers n)

/-- What the patches of a file list is what its hunks add, one hunk after the
other. -/
theorem lines_eq_flatMap_locatedHunks (root : Option Path) (fs : List FileChange) (file : Path) :
    ((fs.map fun f => Patch.ofChangedFile (f.summary root)).filter fun p =>
        p.path = file).flatMap Patch.lines
      = (locatedHunks root fs).flatMap fun x =>
          if x.1 = file then x.2.added.map fun l => (l.number : Int) else [] := by
  induction fs with
  | nil => rfl
  | cons f fs ih =>
    have hfirst : ((f.hunks.toList.map fun h => ((f.summary root).path, h)).flatMap fun x =>
          if x.1 = file then x.2.added.map fun l => (l.number : Int) else [])
        = if (f.summary root).path = file then (Patch.ofChangedFile (f.summary root)).lines
          else [] := by
      rw [List.flatMap_map]
      split
      · show _ = (f.hunks.toList.flatMap Hunk.added).map _
        rw [List.map_flatMap]
      · exact List.flatMap_eq_nil_iff.mpr fun _ _ => rfl
    unfold locatedHunks at ih ⊢
    rw [List.flatMap_cons, List.flatMap_append, hfirst, ← ih, List.map_cons]
    by_cases hpath : (f.summary root).path = file
    · have hkept : (Patch.ofChangedFile (f.summary root)).path = file := hpath
      simp [hkept, hpath]
    · have hdropped : (Patch.ofChangedFile (f.summary root)).path ≠ file := hpath
      simp [hdropped, hpath]

/-- **A refused placement names two hunks.** They are found at the path of the
refused line, and this line lies in the stretches of both. -/
theorem exists_overlap {root : Option Path} {fs : List FileChange}
    (complete : ∀ f ∈ fs, ∀ g ∈ f.hunks.toList, g.IsComplete) {d : Diagnostic}
    {e : DuplicateLine}
    (h : d.place (fs.map fun f => Patch.ofChangedFile (f.summary root)) = .error e) :
    ∃ g g', [(e.path, g), (e.path, g')].Sublist (locatedHunks root fs) ∧
      ∃ n : Nat, e.line = n ∧ g.Covers n ∧ g'.Covers n := by
  have htwice := Diagnostic.place_eq_error h
  rw [lines_eq_flatMap_locatedHunks] at htwice
  have hnumbered (x : Path × Hunk) (hx : x ∈ locatedHunks root fs) :
      x.2.IsNumbered (x.2.added.map AddedLine.number) := by
    obtain ⟨f, hf, hx⟩ := List.mem_flatMap.mp hx
    obtain ⟨g, hg, rfl⟩ := List.mem_map.mp hx
    exact Hunk.isNumbered (complete f hf g hg)
  have hnodup (x : Path × Hunk) (hx : x ∈ locatedHunks root fs) :
      (if x.1 = e.path then x.2.added.map fun l => (l.number : Int) else []).Nodup := by
    split
    · have hincreasing := (hnumbered x hx).increasing
      rw [List.pairwise_map] at hincreasing
      rw [List.Nodup, List.pairwise_map]
      exact hincreasing.imp fun hlt heq => by omega
    · exact List.nodup_nil
  -- a hunk that lists the line is found at its path and covers it
  have hlists {x : Path × Hunk} (hx : x ∈ locatedHunks root fs)
      (hline : e.line ∈ if x.1 = e.path then x.2.added.map fun l => (l.number : Int) else []) :
      x = (e.path, x.2) ∧ ∃ n : Nat, e.line = n ∧ x.2.Covers n := by
    split at hline
    · next hpath =>
      obtain ⟨l, hl, hline⟩ := List.mem_map.mp hline
      exact ⟨Prod.ext hpath rfl, l.number, hline.symm,
        (hnumbered x hx).covered _ (List.mem_map_of_mem hl)⟩
    · exact absurd hline List.not_mem_nil
  obtain ⟨x, y, hxy, hx, hy⟩ := exists_pair_of_count_flatMap hnodup htwice
  obtain ⟨hxpath, n, hn, hxcovers⟩ := hlists (hxy.subset (.head _)) hx
  obtain ⟨hypath, m, hm, hycovers⟩ := hlists (hxy.subset (.tail _ (.head _))) hy
  obtain rfl : n = m := Int.ofNat.inj (hn.symm.trans hm)
  refine ⟨x.2, y.2, ?_, n, hn, hxcovers, hycovers⟩
  rwa [← hxpath, ← hypath]

end FileChange

/-- **The lines of a diff that is read stay inside their hunks, and only hunks
that overlap make a placement fail.** The changes that are read have hunks
whose headers are lines of the diff, in their order. The added lines of each
file are, hunk by hunk, numbers that fit the hunk. A diagnostic is refused
only where two hunks at the path of the refused line both cover this line;
where the hunks keep apart, none is. -/
theorem ChangedFile.isNumbered_of_parse {diff : String} {root : Option Path}
    {files : List ChangedFile} (h : parse diff root = .ok files) :
    ∃ fs : List FileChange, FileChange.parse diff = .ok fs.toArray ∧
      files = fs.map (·.summary root) ∧
      ((fs.flatMap (·.hunks.toList)).map Hunk.opening).Sublist
        ((Text.lines diff.toList).filterMap HeaderLine.hunk?) ∧
      (∀ f ∈ fs, ∃ runs : List (List Nat),
        (f.summary root).added.map AddedLine.number = runs.flatten ∧
          List.Forall₂ Hunk.IsNumbered f.hunks.toList runs) ∧
      (∀ (d : Diagnostic) (e : DuplicateLine),
        d.place (files.map Patch.ofChangedFile) = .error e →
          ∃ g g', [(e.path, g), (e.path, g')].Sublist (FileChange.locatedHunks root fs) ∧
            ∃ n : Nat, e.line = n ∧ g.Covers n ∧ g'.Covers n) ∧
      (FileChange.AreApart root fs → ∀ d : Diagnostic,
        ∃ place, d.place (files.map Patch.ofChangedFile) = .ok place) := by
  unfold parse at h
  cases hparse : FileChange.parse diff with
  | error e =>
    rw [hparse] at h
    cases h
  | ok fs =>
    rw [hparse] at h
    cases h
    obtain ⟨hcomplete, hheaders⟩ := FileChange.hunks_of_parse hparse
    have complete : ∀ f ∈ fs.toList, ∀ g ∈ f.hunks.toList, g.IsComplete :=
      fun f hf g hg => hcomplete g (List.mem_flatMap.mpr ⟨f, hf, hg⟩)
    have hoverlap {d : Diagnostic} {e : DuplicateLine}
        (hd : d.place ((fs.toList.map (·.summary root)).map Patch.ofChangedFile) = .error e) :=
      FileChange.exists_overlap complete (by rwa [List.map_map] at hd)
    refine ⟨fs.toList, rfl, rfl, hheaders, fun f hf => ?_, fun d e => hoverlap, fun hapart d => ?_⟩
    · refine ⟨f.hunks.toList.map fun g => g.added.map AddedLine.number, ?_, ?_⟩
      · show (f.hunks.toList.flatMap Hunk.added).map _ = _
        rw [List.map_flatMap, List.flatMap_def]
      · rw [List.forall₂_map_right_iff, List.forall₂_same]
        exact fun g hg => Hunk.isNumbered (complete f hf g hg)
    · cases hd : d.place ((fs.toList.map (·.summary root)).map Patch.ofChangedFile) with
      | ok place => exact ⟨place, rfl⟩
      | error e =>
        obtain ⟨g, g', hpair, n, -, hg, hg'⟩ := hoverlap hd
        exact absurd ⟨hg, hg'⟩ (List.pairwise_iff_forall_sublist.mp hapart hpair rfl n)

/-- A diff that tells of `a.py` twice, the second time of a line that the first
hunk has told of already. -/
def overlappingDiff : String :=
  "--- a/a.py\n+++ b/a.py\n@@ -0,0 +1,2 @@\n+x\n+y\n--- a/a.py\n+++ b/a.py\n@@ -0,0 +2 @@\n+z\n"

/-- A diagnostic on the second line of the file of `overlappingDiff` is
refused, and two hunks cover this line. -/
theorem ChangedFile.parse_overlappingDiff :
    ∃ files : List ChangedFile, parse overlappingDiff none = .ok files ∧
      (files.map fun f => f.added.map AddedLine.number) = [[1, 2], [2]] ∧
      Diagnostic.place (files.map Patch.ofChangedFile)
          ⟨some (.path (.ofString "a.py")), none, some 1, some 1, none⟩
        = .error ⟨2, .ofString "a.py", 2⟩ ∧
      ∃ fs : List FileChange, FileChange.parse overlappingDiff = .ok fs.toArray ∧
        ∃ g g' : Hunk, [(Path.ofString "a.py", g), (Path.ofString "a.py", g')].Sublist
            (FileChange.locatedHunks none fs) ∧ g.Covers 2 ∧ g'.Covers 2 := by
  have hparse : ∃ files : List ChangedFile, parse overlappingDiff none = .ok files ∧
      (files.map fun f => f.added.map AddedLine.number) = [[1, 2], [2]] ∧
      Diagnostic.place (files.map Patch.ofChangedFile)
          ⟨some (.path (.ofString "a.py")), none, some 1, some 1, none⟩
        = .error ⟨2, .ofString "a.py", 2⟩ := by
    refine ⟨((FileChange.parse overlappingDiff).toOption.getD #[]).toList.map (·.summary none),
      ?_, ?_, ?_⟩ <;> decide +kernel
  obtain ⟨files, hfiles, hnumbers, hrefused⟩ := hparse
  obtain ⟨fs, hfs, -, -, -, hoverlap, -⟩ := ChangedFile.isNumbered_of_parse hfiles
  obtain ⟨g, g', hpair, n, hn, hg, hg'⟩ := hoverlap _ _ hrefused
  obtain rfl : 2 = n := Int.ofNat.inj hn
  exact ⟨files, hfiles, hnumbers, hrefused, fs, hfs, g, g', hpair, hg, hg'⟩

end ChangeReview
