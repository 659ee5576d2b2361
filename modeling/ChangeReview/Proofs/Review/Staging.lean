import Mathlib.Control.Monad.Basic
import ChangeReview.Proofs.Review.Run

/-!
# Selecting first loses nothing

A review works in two stages: it first selects patches – those that add
something, to a file that is looked at – and then places the diagnostics of
the checker on the selected patches only. The plain way to say what a review
should give knows of no stages: take the diagnostics of the files that are
looked at, and place each of them among *all* the patches.

The two agree. Whether a file is looked at is decided by its path alone, so
for such a file the selection drops only patches without added lines, which
hold no line that a range could cover; and for any other file it drops every
patch, so that no diagnostic of the file is placed – nor refused, when the
file lists a line twice. The one thing to be known of the patches is that
their count of additions does not lie: it is positive exactly where there is
an added line, as it is for every patch that is made from a changed file.
-/

namespace ChangeReview

/-- Whether the count of additions says truly whether there is an added line. -/
def Patch.IsTruthful (p : Patch) : Prop := 0 < p.additions ↔ p.lines ≠ []

/-- A patch that counts its own lines is truthful. -/
theorem Patch.isTruthful_ofChangedFile (f : ChangedFile) : (Patch.ofChangedFile f).IsTruthful := by
  simp [Patch.IsTruthful, Patch.additions, Patch.ofChangedFile, List.length_pos_iff]

namespace Diagnostic

/-- Whether a diagnostic is about a file that reviews look at. -/
def isEligible (cwd : Path) (excludes : List String) (d : Diagnostic) : Bool :=
  d.path?.any (·.isEligible cwd excludes)

/-- What a diagnostic gives where it is placed among these patches: its file
and the line found, and what the checker says, word for word. -/
def stated? (patches : List Patch) (runner : String) (d : Diagnostic) :
    Except DuplicateLine (Option Message) :=
  (d.place patches).map fun found => found.map fun (_, line) =>
    { path := (d.path?.map Path.text).getD ""
      line := line
      level := d.severity
      text := d.message
      runner := runner }

/-- The messages that diagnostics give when nothing is selected beforehand:
the diagnostics of the files that are looked at, each placed among all the
patches. -/
def unstaged (patches : List Patch) (cwd : Path) (excludes : List String) (runner : String)
    (ds : List Diagnostic) : Except DuplicateLine (List Message) :=
  ((ds.filter (isEligible cwd excludes)).mapM (stated? patches runner)).map List.reduceOption

end Diagnostic

variable {patches : List Patch} {cwd : Path} {excludes : List String}

/-! ## Keeping patches by their paths -/

section Keeping

variable {select : Patch → Bool} {keep : Path → Bool}
variable (h : ∀ p ∈ patches, p.lines ≠ [] → select p = keep p.path)
include h

/-- What the patches that are kept list for a file within a range: as much as
all of them, for a file that is kept, and nothing for any other. -/
theorem Patch.linesWithin_filter (file : Path) (first last : Int) :
    linesWithin (patches.filter select) file first last
      = if keep file then linesWithin patches file first last else [] := by
  induction patches with
  | nil => simp [linesWithin]
  | cons p ps ih =>
    have hp := h p (.head _)
    have hrest := ih fun q hq => h q (.tail _ hq)
    unfold linesWithin at hrest ⊢
    by_cases hfile : p.path = file
    · subst hfile
      by_cases hlines : p.lines = []
      · -- it lists no line, whether it is kept or not
        cases hsel : select p <;> simpa [List.filter_cons, hsel, hlines] using hrest
      · cases hkeep : keep p.path <;>
          simpa [List.filter_cons, hp hlines, hkeep] using hrest
    · cases hsel : select p <;> simpa [List.filter_cons, hsel, hfile] using hrest

/-- The line found among the patches that are kept is the one found among all
of them, for a file that is kept; for any other file none is, and no line is
refused. -/
theorem Patch.lastWithin_filter (file : Path) (first last : Int) :
    lastWithin (patches.filter select) file first last
      = if keep file then lastWithin patches file first last else .ok none := by
  unfold lastWithin
  rw [linesWithin_filter h]
  split <;> rfl

namespace Diagnostic

theorem message?_filter (runner : String) (d : Diagnostic) :
    d.message? (patches.filter select) runner
      = if d.path?.any keep then d.message? patches runner else .ok none := by
  unfold message? place
  cases d.path? with
  | none => rfl
  | some file =>
    cases d.startLine <;> cases d.endLine <;>
      simp only [Option.any_some, Patch.lastWithin_filter h] <;>
      split <;> rfl

/-- **Keeping patches by their paths is keeping diagnostics by their files.** -/
theorem messages_filter (runner : String) (ds : List Diagnostic) :
    messages (patches.filter select) runner ds
      = messages patches runner (ds.filter fun d => d.path?.any keep) := by
  induction ds with
  | nil => rfl
  | cons d ds ih =>
    rw [messages, ih, message?_filter h, List.filter_cons]
    split
    · rw [messages]
    · show (messages patches runner _).bind (fun ms => .ok ms) = _
      cases messages patches runner (ds.filter fun d => d.path?.any keep) <;> rfl

end Diagnostic

end Keeping

/-! ## The messages of a selection -/

/-- Whether a patch with lines is selected is decided by its path. -/
theorem Patch.isSelected_eq_isEligible (truthful : ∀ p ∈ patches, p.IsTruthful) :
    ∀ p ∈ patches, p.lines ≠ [] → p.isSelected cwd excludes = p.path.isEligible cwd excludes := by
  intro p hp hlines
  unfold isSelected
  rw [decide_eq_true ((truthful p hp).mpr hlines), Bool.true_and]

namespace Diagnostic

/-- A diagnostic is placed in its own file. -/
theorem place_eq_map (patches : List Patch) (d : Diagnostic) :
    d.place patches = (d.place patches).map fun found =>
      d.path?.bind fun file => found.map fun (_, line) => (file, line) := by
  unfold place
  split
  · next file first last hfile _ _ =>
    rw [hfile]
    cases Patch.lastWithin patches file (first + 1) (last + 1) with
    | error e => rfl
    | ok line => cases line <;> rfl
  · cases d.path? <;> rfl

/-- The message of a diagnostic says what is to be stated. -/
theorem message?_eq_stated? (patches : List Patch) (runner : String) (d : Diagnostic) :
    d.message? patches runner = d.stated? patches runner := by
  unfold message? stated?
  rw [place_eq_map]
  cases d.place patches with
  | error e => rfl
  | ok found =>
    cases d.path? with
    | none => rfl
    | some file => cases found <;> rfl

/-- Going through the diagnostics one by one is asking each for its message,
and keeping the messages there are. -/
theorem messages_eq_mapM (patches : List Patch) (runner : String) (ds : List Diagnostic) :
    messages patches runner ds
      = (ds.mapM (stated? patches runner)).map List.reduceOption := by
  induction ds with
  | nil => rfl
  | cons d ds ih =>
    rw [messages, ih, List.mapM_cons, message?_eq_stated?]
    cases d.stated? patches runner with
    | error e => rfl
    | ok m =>
      cases ds.mapM (stated? patches runner) with
      | error e => rfl
      | ok ms => cases m <;> rfl

/-- The messages from the selected patches are those that diagnostics give
when nothing is selected. -/
theorem messages_selected (truthful : ∀ p ∈ patches, p.IsTruthful)
    (runner : String) (ds : List Diagnostic) :
    messages (patches.filter (·.isSelected cwd excludes)) runner ds
      = unstaged patches cwd excludes runner ds := by
  unfold unstaged
  rw [← messages_eq_mapM]
  exact messages_filter (Patch.isSelected_eq_isEligible truthful) runner ds

/-- Among diagnostics that are about files that are looked at, the first that
is refused decides. -/
theorem unstaged_of_refused {ds before after : List Diagnostic} {d : Diagnostic}
    {e : DuplicateLine} (hds : ds.filter (isEligible cwd excludes) = before ++ d :: after)
    (hbefore : ∀ b ∈ before, (b.place patches).isOk) (hd : d.place patches = .error e)
    (runner : String) : unstaged patches cwd excludes runner ds = .error e := by
  unfold unstaged
  rw [hds, ← messages_eq_mapM]
  clear hds
  induction before with
  | nil =>
    rw [List.nil_append, messages, message?, hd]
    rfl
  | cons b before ih =>
    rw [List.cons_append, messages, ih fun c hc => hbefore c (.tail _ hc)]
    have hb := hbefore b (.head _)
    unfold message?
    cases hplace : b.place patches with
    | error e' => rw [hplace] at hb; cases hb
    | ok found => rfl

end Diagnostic

/-! ## A whole run -/

/-- Some patch is selected exactly if one adds something to a file that is
looked at. -/
theorem Patch.filter_isSelected_eq_nil :
    patches.filter (·.isSelected cwd excludes) = []
      ↔ ¬ ∃ p ∈ patches, 0 < p.additions ∧ p.path.isEligible cwd excludes := by
  simp [List.filter_eq_nil_iff, Patch.isSelected]

/-- **Selecting first loses and invents nothing.** A run that decides itself
which patches to look at starts the checker once if some patch adds something
to a file that is looked at, and not at all otherwise. In the second case it
gives no messages; in the first it gives what the diagnostics give when
nothing is selected beforehand and each is placed among all the patches of the
session: the text of its file, the line found, its severity and its message.
The first diagnostic of a file that is looked at whose place among them is
refused makes the run fail, with the reason it is refused for; those of other
files cannot. -/
theorem Session.run_eq_unstaged {s : Session} (unchosen : s.chosen = none)
    (truthful : ∀ p ∈ s.patches, p.IsTruthful) {stdout : String} {ds : List Diagnostic}
    (hparse : Diagnostic.parse s.room stdout = .ok ds) (stderr : String) (status : Int) :
    ∃ o, (s.step (.run (.exited stdout stderr status))).2 = .ran o ∧
      if ∃ p ∈ s.patches, 0 < p.additions ∧ p.path.isEligible s.cwd s.excludes then
        o.calls = [.check] ∧
        o.result = (Diagnostic.unstaged s.patches s.cwd s.excludes s.runner ds).mapError
          .placement ∧
        ∀ before d after e,
          ds.filter (Diagnostic.isEligible s.cwd s.excludes) = before ++ d :: after →
          (∀ b ∈ before, (b.place s.patches).isOk) → d.place s.patches = .error e →
          o.result = .error (.placement e)
      else o.calls = [] ∧ o.result = .ok [] := by
  refine ⟨_, rfl, ?_⟩
  rw [selection_of_unchosen unchosen]
  split
  case isTrue hsome =>
    have hne : s.patches.filter (·.isSelected s.cwd s.excludes) ≠ [] :=
      fun h => Patch.filter_isSelected_eq_nil.mp h hsome
    rw [review_calls, if_neg hne, review_result hne hparse,
      Diagnostic.messages_selected truthful]
    refine ⟨rfl, rfl, fun before d after e hds hbefore hd => ?_⟩
    rw [Diagnostic.unstaged_of_refused hds hbefore hd]
    rfl
  case isFalse hnone =>
    rw [Patch.filter_isSelected_eq_nil.mpr hnone]
    exact ⟨rfl, rfl⟩

/-- A session with an excluded file that lists a line twice. -/
def Session.twoFiles : Session where
  patches := [⟨.ofString "t.py", [2, 2], none⟩, ⟨.ofString "a.py", [2], none⟩]
  excludes := ["t*"]
  cwd := .ofString "/r"
  runner := defaultRunner
  room := 9
  chosen := none

/-- A report on the second line of both files of `Session.twoFiles`. -/
def Session.twoFilesReport : String :=
  let line := "\x7b\"line\":1\x7d"
  let range := "\x7b\"start\":" ++ line ++ ",\"end\":" ++ line ++ "\x7d"
  let entry (file message : String) := "\x7b\"file\":\"" ++ file ++ "\",\"range\":" ++ range ++
    ",\"severity\":\"error\",\"message\":\"" ++ message ++ "\"\x7d"
  "\x7b\"diagnostics\":[" ++ entry "t.py" "untested" ++ "," ++ entry "a.py" "unused" ++ "]\x7d"

/-- The doubled line of the excluded file does no harm. -/
theorem Session.run_twoFiles :
    ∃ o, (Session.twoFiles.step (.run (.exited Session.twoFilesReport "" 1))).2 = .ran o ∧
      o.calls = [.check] ∧
        o.result = .ok [⟨"a.py", 2, some "error", some "unused", defaultRunner⟩] := by
  have htrue : ∀ p ∈ Session.twoFiles.patches, p.IsTruthful := by
    simp [Session.twoFiles, Patch.IsTruthful, Patch.additions]
  have hparse : Diagnostic.parse Session.twoFiles.room Session.twoFilesReport = .ok
      [⟨some (.path (.ofString "t.py")), some "error", some 1, some 1, some "untested"⟩,
        ⟨some (.path (.ofString "a.py")), some "error", some 1, some 1, some "unused"⟩] := by
    decide +kernel
  obtain ⟨o, hran, ho⟩ := Session.run_eq_unstaged rfl htrue hparse "" 1
  rw [if_pos (by decide +kernel)] at ho
  exact ⟨o, hran, ho.1, ho.2.1.trans (by decide +kernel)⟩

end ChangeReview
