import ChangeReview.Proofs.Json.Strings
import ChangeReview.Proofs.Review.Exclusion
import ChangeReview.Proofs.Review.Staging

/-!
# More patterns, fewer messages

Patterns are tried on the patches, before the checker is started, and what
they are there for shows at the other end of a review, in the messages. Adding
patterns should do there what it says: take the messages away that are about
the files newly excluded, and leave the others as they are.

Whether a file is excluded depends on its path, so the patterns take all
patches of a file away or none, and no message about any other file is made of
them. A message has the text of the path only, but that spells the path
(`Path.ofString_text`), so it can be told of each message whether the patterns
are to take it away. The case to look at is that they leave no patch at all.
Then the checker is not started, and nothing is said; and nothing is what is
left of the messages, since none is made of no patches
(`Diagnostic.messages_nil`).
-/

namespace ChangeReview

/-! ## Patterns taken together -/

section Patterns

variable {excludes more all : List String}
variable (hall : ∀ pattern, pattern ∈ all ↔ pattern ∈ excludes ∨ pattern ∈ more)
include hall

/-- What excludes a file is a matter of which patterns there are, not of their
order or how often they are listed. -/
theorem Path.isExcluded_of_mem_iff (p cwd : Path) :
    p.isExcluded cwd all = (p.isExcluded cwd excludes || p.isExcluded cwd more) := by
  rw [Bool.eq_iff_iff, Bool.or_eq_true, isExcluded_eq_true_iff, isExcluded_eq_true_iff,
    isExcluded_eq_true_iff]
  simp only [hall, or_and_right, exists_or]

theorem Patch.isSelected_of_mem_iff (p : Patch) (cwd : Path) :
    p.isSelected cwd all = (!p.path.isExcluded cwd more && p.isSelected cwd excludes) := by
  unfold isSelected Path.isEligible
  rw [Path.isExcluded_of_mem_iff hall]
  cases p.path.isExcluded cwd excludes <;> cases p.path.isExcluded cwd more <;> simp

end Patterns

/-! ## Messages of files that are kept -/

namespace Diagnostic

variable {patches : List Patch} {runner : String} {keep : Path → Bool}

/-- Nothing is placed among no patches, and nothing refused. -/
theorem messages_nil (runner : String) (ds : List Diagnostic) : messages [] runner ds = .ok [] := by
  have hnone (d : Diagnostic) : d.message? [] runner = .ok none := by
    unfold message? place
    split <;> rfl
  induction ds with
  | nil => rfl
  | cons d ds ih =>
    rw [messages, hnone, ih]
    rfl

/-- A message is about the file of its diagnostic. -/
theorem file_of_message? {d : Diagnostic} {m : Message}
    (h : d.message? patches runner = .ok (some m)) : d.path? = some (.ofString m.path) := by
  unfold message? place at h
  split at h
  · next file first last hfile _ _ =>
    cases hline : Patch.lastWithin patches file (first + 1) (last + 1) with
    | error e => rw [hline] at h; cases h
    | ok line =>
      rw [hline] at h
      cases line with
      | none => cases h
      | some line =>
        obtain rfl := Option.some.inj (Except.ok.inj h)
        exact hfile.trans (congrArg some (Path.ofString_text file).symm)
  · cases h

/-- The messages of the diagnostics of some files are those about these
files. -/
theorem messages_filter_file {ds : List Diagnostic} {ms : List Message}
    (h : messages patches runner ds = .ok ms) :
    messages patches runner (ds.filter fun d => d.path?.any keep)
      = .ok (ms.filter fun m => keep (.ofString m.path)) := by
  induction ds generalizing ms with
  | nil =>
    obtain rfl := Except.ok.inj h
    rfl
  | cons d ds ih =>
    obtain ⟨m, hm, h⟩ := bind_eq_ok.mp h
    obtain ⟨rest, hrest, h⟩ := bind_eq_ok.mp h
    obtain rfl := Except.ok.inj h
    rw [List.filter_append, List.filter_cons]
    cases m with
    | none =>
      split
      · rw [messages, hm, ih hrest]
        rfl
      · exact ih hrest
    | some m =>
      rw [file_of_message? hm, Option.any_some]
      by_cases hkeep : keep (.ofString m.path)
      · rw [if_pos hkeep, messages, hm, ih hrest]
        simp [hkeep]
        rfl
      · rw [if_neg hkeep, ih hrest]
        simp [hkeep]

end Diagnostic

/-- **Keeping patches by their paths is keeping messages by theirs**, where the
review gives messages at all. -/
theorem review_filter {room : Nat} {patches : List Patch} {runner : String} {checker : Child}
    {ms : List Message} (keep : Path → Bool)
    (h : (review room patches runner checker).result = .ok ms) :
    (review room (patches.filter fun p => keep p.path) runner checker).result
      = .ok (ms.filter fun m => keep (.ofString m.path)) := by
  by_cases hne : patches = []
  · subst hne
    obtain rfl := Except.ok.inj h
    rfl
  · have hwrites : ∃ report, checker.Writes report := by
      refine checker.writes_or_fails.resolve_right fun ⟨cause, hcause⟩ => ?_
      rw [review_result_of_fails hne hcause] at h
      cases h
    obtain ⟨report, hreport⟩ := hwrites
    rw [review_result_of_writes hne hreport] at h
    obtain ⟨ds, hds, h⟩ := bind_eq_ok.mp h
    have hms : Diagnostic.messages patches runner ds = .ok ms := by
      cases hms : Diagnostic.messages patches runner ds with
      | error e => rw [hms] at h; cases h
      | ok ms' => rw [hms] at h; exact congrArg _ (Except.ok.inj h)
    have hkept : Diagnostic.messages (patches.filter fun p => keep p.path) runner ds
        = .ok (ms.filter fun m => keep (.ofString m.path)) :=
      (Diagnostic.messages_filter (fun _ _ _ => rfl) runner ds).trans
        (Diagnostic.messages_filter_file hms)
    by_cases hnil : patches.filter (fun p => keep p.path) = []
    · -- the checker is not started, and there was nothing to be said
      rw [hnil, Diagnostic.messages_nil] at hkept
      rw [hnil, ← Except.ok.inj hkept]
      rfl
    · rw [review_result_of_writes hnil hreport, hds, ok_bind, hkept]
      rfl

/-- A review of some of the patches starts nothing that one of all does not. -/
theorem review_filter_calls (room : Nat) (patches : List Patch) (select : Patch → Bool)
    (runner : String) (checker : Child) :
    (review room (patches.filter select) runner checker).calls.Sublist
      (review room patches runner checker).calls := by
  rw [review_calls, review_calls]
  by_cases hne : patches = []
  · rw [hne, List.filter_nil]
  · rw [if_neg hne]
    split
    · exact List.nil_sublist _
    · exact List.Sublist.refl _

/-- **Adding patterns only takes messages away.** Take any patches, and
patterns some of which are added, in any order and as often as one likes. If a
first run with the others gives messages, then one with all of them gives
those messages, in their order, that are about files that the added patterns
do not exclude; and it starts no command that the other did not start. -/
theorem Session.run_excluding {patches : List Patch} {excludes more all : List String}
    (hall : ∀ pattern, pattern ∈ all ↔ pattern ∈ excludes ∨ pattern ∈ more) (cwd : Path)
    (runner : String) (room : Nat) (checker : Child) {o : Outcome (List Message)}
    {ms : List Message}
    (hran : ((⟨patches, excludes, cwd, runner, room, none⟩ : Session).step (.run checker)).2
      = .ran o)
    (hms : o.result = .ok ms) :
    ∃ o', ((⟨patches, all, cwd, runner, room, none⟩ : Session).step (.run checker)).2 = .ran o' ∧
      o'.result = .ok (ms.filter fun m => !(Path.ofString m.path).isExcluded cwd more) ∧
      o'.calls.Sublist o.calls := by
  have hselected : patches.filter (·.isSelected cwd all)
      = (patches.filter (·.isSelected cwd excludes)).filter
        fun p => !p.path.isExcluded cwd more := by
    rw [List.filter_filter]
    exact List.filter_congr fun p _ => p.isSelected_of_mem_iff hall cwd
  rw [run_of_unchosen rfl checker] at hran
  obtain rfl := Answer.ran.inj hran
  refine ⟨_, run_of_unchosen rfl checker, ?_⟩
  dsimp only
  rw [hselected]
  exact ⟨review_filter (fun p => !p.isExcluded cwd more) hms, review_filter_calls _ _ _ _ _⟩

/-- Two patches, the second of which comes with a count of its own. -/
def Patch.counted : List Patch :=
  [⟨.ofString "t.py", [2], none⟩, ⟨.ofString "a.py", [2], some 7⟩]

/-- A pattern that is added twice, in front and behind, takes the message of the
one file away. -/
theorem Session.run_excludingTests :
    ∃ o o', ((⟨Patch.counted, ["x*"], .ofString "/r", "p", 9, none⟩ : Session).step
        (.run (.exited Session.twoFilesReport "" 1))).2 = .ran o ∧
      ((⟨Patch.counted, ["t*", "x*", "t*"], .ofString "/r", "p", 9, none⟩ : Session).step
        (.run (.exited Session.twoFilesReport "" 1))).2 = .ran o' ∧
      o.result = .ok [⟨"t.py", 2, some "error", some "untested", "p"⟩,
        ⟨"a.py", 2, some "error", some "unused", "p"⟩] ∧
      o'.result = .ok [⟨"a.py", 2, some "error", some "unused", "p"⟩] ∧
      o'.calls.Sublist o.calls := by
  have hall (pattern : String) :
      pattern ∈ ["t*", "x*", "t*"] ↔ pattern ∈ ["x*"] ∨ pattern ∈ ["t*"] := by
    simp [or_comm]
  have hran := run_of_unchosen (s := ⟨Patch.counted, ["x*"], .ofString "/r", "p", 9, none⟩) rfl
    (.exited Session.twoFilesReport "" 1)
  generalize ho : review _ _ _ _ = o at hran
  have hms : o.result = .ok [⟨"t.py", 2, some "error", some "untested", "p"⟩,
      ⟨"a.py", 2, some "error", some "unused", "p"⟩] := by
    rw [← ho]
    decide +kernel
  obtain ⟨o', hran', hms', hcalls⟩ := Session.run_excluding hall (.ofString "/r") "p" 9
    (.exited Session.twoFilesReport "" 1) hran hms
  exact ⟨o, o', hran, hran', hms, hms'.trans (by decide +kernel), hcalls⟩

end ChangeReview
