import ChangeReview.Change.Parser

/-!
# Only long numbers keep a diff from being read

The changes that a diff tells are said without regard to how long the numbers
of its hunk headers are (`ChangedFile.parse`), and so is what is known of them.
A review reads a diff with one reservation (`ChangedFile.read`): where it would
have to take a number that has too many digits, it takes the whole diff for
unreadable. Until then the two go through the lines in step, so one of two
things is the case. The review reads what the diff tells, or fails to for the
same reason; or it is refused for a number that stands in a hunk header of the
diff with as many digits as the refusal says (`ChangedFile.read_eq`).
-/

namespace ChangeReview

/-- So many digits stand side by side in a text, and this is too many. -/
def Text.HasLongRun (n : Nat) (cs : List Char) : Prop :=
  maxDigits < n ∧ ∃ before ds behind, cs = before ++ ds ++ behind ∧ ds.length = n ∧
    ∀ d ∈ ds, isDigit d = true

/-- A run that is found to be too long stands in the text, or at its start
where digits stood in front of it. -/
theorem Text.exists_of_longRun? {k n : Nat} {cs : List Char} (h : longRun? k cs = some n) :
    HasLongRun n cs ∨
      maxDigits < n ∧ ∃ ds behind, cs = ds ++ behind ∧ k + ds.length = n ∧
        ∀ d ∈ ds, isDigit d = true := by
  induction cs generalizing k with
  | nil =>
    rw [longRun?] at h
    split at h
    · next hlong =>
      cases h
      exact .inr ⟨hlong, [], [], rfl, rfl, nofun⟩
    · cases h
  | cons c rest ih =>
    have hlater (h : HasLongRun n rest) : HasLongRun n (c :: rest) := by
      obtain ⟨hn, before, ds, behind, rfl, hds⟩ := h
      exact ⟨hn, c :: before, ds, behind, rfl, hds⟩
    rw [longRun?] at h
    split at h
    · next hdigit =>
      rcases ih h with hrun | ⟨hn, ds, behind, rfl, hlength, hds⟩
      · exact .inl (hlater hrun)
      · refine .inr ⟨hn, c :: ds, behind, rfl, ?_, List.forall_mem_cons.mpr ⟨hdigit, hds⟩⟩
        rw [List.length_cons]
        omega
    · split at h
      · next hlong =>
        cases h
        exact .inr ⟨hlong, [], c :: rest, rfl, rfl, nofun⟩
      · rcases ih h with hrun | ⟨hn, ds, behind, rfl, hlength, hds⟩
        · exact .inl (hlater hrun)
        · exact .inl (hlater ⟨hn, [], ds, behind, rfl, by omega, hds⟩)

/-- A hunk header that is found to have a number that is too long has it. -/
theorem HeaderLine.hasLongRun_of_long? {line : List Char} {n : Nat} (h : long? line = some n) :
    (hunk? line).isSome = true ∧ Text.HasLongRun n line := by
  unfold long? at h
  split at h
  · next hhunk =>
    have hrun : Text.HasLongRun n ((line.drop 4).takeWhile (· != '@')) := by
      rcases Text.exists_of_longRun? h with hrun | ⟨hn, ds, behind, heq, hlength, hds⟩
      · exact hrun
      · exact ⟨hn, [], ds, behind, heq, by omega, hds⟩
    obtain ⟨hn, before, ds, behind, heq, hds⟩ := hrun
    refine ⟨hhunk, hn, line.take 4 ++ before, ds,
      behind ++ (line.drop 4).dropWhile (· != '@'), ?_, hds⟩
    calc line = line.take 4 ++ line.drop 4 := (List.take_append_drop 4 line).symm
      _ = line.take 4 ++
          ((line.drop 4).takeWhile (· != '@') ++ (line.drop 4).dropWhile (· != '@')) := by
        rw [List.takeWhile_append_dropWhile]
      _ = _ := by rw [heq]; simp
  · cases h

namespace Reader

/-- A step that minds the length of numbers is like any other step, or is
refused for a number of its line. -/
theorem boundedStep_eq (s : State) (line : List Char) :
    boundedStep s line = step s line ∨ ∃ n, boundedStep s line = .error (.longNumber n) ∧
      (HeaderLine.hunk? line).isSome = true ∧ Text.HasLongRun n line := by
  unfold boundedStep
  cases hlong : s.long? line with
  | none => exact .inl rfl
  | some n =>
    refine .inr ⟨n, rfl, HeaderLine.hasLongRun_of_long? ?_⟩
    unfold State.long? at hlong
    split at hlong
    · exact hlong
    · exact hlong
    · cases hlong

/-- So are the steps over any lines. -/
theorem foldlM_boundedStep_eq (s : State) (lines : List (List Char)) :
    lines.foldlM boundedStep s = lines.foldlM step s ∨
      ∃ n, lines.foldlM boundedStep s = .error (.longNumber n) ∧
        ∃ line ∈ lines, (HeaderLine.hunk? line).isSome = true ∧ Text.HasLongRun n line := by
  induction lines generalizing s with
  | nil => exact .inl rfl
  | cons line lines ih =>
    rw [List.foldlM_cons, List.foldlM_cons]
    rcases boundedStep_eq s line with hstep | ⟨n, hstep, hline⟩
    · rw [hstep]
      cases step s line with
      | error e => exact .inl rfl
      | ok s' =>
        rcases ih s' with hrest | ⟨n, hrest, later, hlater, hline⟩
        · exact .inl hrest
        · exact .inr ⟨n, hrest, later, .tail _ hlater, hline⟩
    · rw [hstep]
      exact .inr ⟨n, rfl, line, .head _, hline⟩

end Reader

/-- **A review reads what a diff tells**, unless a hunk header of the diff has a
number of too many digits. -/
theorem ChangedFile.read_eq (diff : String) (root : Option Path) :
    read diff root = parse diff root ∨ ∃ n, read diff root = .error (.longNumber n) ∧
      ∃ line ∈ Text.lines diff.toList, (HeaderLine.hunk? line).isSome = true ∧
        Text.HasLongRun n line := by
  unfold read parse FileChange.read FileChange.parse
  rcases Reader.foldlM_boundedStep_eq .init (Text.lines diff.toList) with h | ⟨n, h, hline⟩
  · rw [h]
    exact .inl rfl
  · rw [h]
    exact .inr ⟨n, rfl, hline⟩

/-- What a review reads of a diff is what the diff tells. -/
theorem ChangedFile.parse_of_read {diff : String} {root : Option Path} {files : List ChangedFile}
    (h : read diff root = .ok files) : parse diff root = .ok files := by
  rcases read_eq diff root with heq | ⟨n, herror, -⟩
  · rw [← heq, h]
  · cases h.symm.trans herror

end ChangeReview
