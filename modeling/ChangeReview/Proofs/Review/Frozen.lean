import Mathlib.Data.List.Basic
import ChangeReview.Proofs.Review.Run

/-!
# A runner keeps to its first choice

The runner of a session chooses the patches it looks at when it is first
asked, by a selection or by a run, and keeps to them until it is replaced. The
state behind this is half a snapshot: the choice is remembered as *positions*,
so that which patches are looked at no longer changes, while the patches
themselves are looked up anew each time, so that lines added in between are
seen.

The proof follows the two halves. The patch at a position never changes but
for the lines that are added to it, whatever else is done
(`Session.patches_after`); and a choice, once made, outlives every step but the
replacement of the runner (`Session.chosen_after`). Put together they give
what the runner looks at after any steps (`Session.selection_after`), and so
what it answers (`Session.answers_frozen`).
-/

namespace ChangeReview

/-- The patch with more added lines. -/
def Patch.addLines (p : Patch) (ns : List Int) : Patch := { p with lines := p.lines ++ ns }

@[simp] theorem Patch.addLines_nil (p : Patch) : p.addLines [] = p := by
  simp [addLines]

@[simp] theorem Patch.addLines_addLines (p : Patch) (ns ms : List Int) :
    (p.addLines ns).addLines ms = p.addLines (ns ++ ms) := by
  simp [addLines]

namespace Session

/-! ## Sequences of steps -/

/-- Whether a step asks the runner for something. -/
def Step.isUse : Step → Bool
  | .select | .run _ => true
  | _ => false

/-- The lines that steps add to the patch at a position. -/
def addedTo (i : Nat) (steps : List Step) : List Int :=
  steps.flatMap fun
    | .addLine j n => if j = i then [n] else []
    | _ => []

/-- The session behind some steps. -/
def after (s : Session) : List Step → Session
  | [] => s
  | step :: steps => (s.step step).1.after steps

theorem after_append (s : Session) (xs ys : List Step) :
    s.after (xs ++ ys) = (s.after xs).after ys := by
  induction xs generalizing s with
  | nil => rfl
  | cons x xs ih => exact ih (s.step x).1

/-- The answers to more steps come from the session behind the first ones. -/
theorem answers_append (s : Session) (xs ys : List Step) :
    s.answers (xs ++ ys) = s.answers xs ++ (s.after xs).answers ys := by
  induction xs generalizing s with
  | nil => rfl
  | cons x xs ih => rw [List.cons_append, answers, answers, ih]; rfl

/-- The last answer is that of the last step, in the session behind the others. -/
theorem getLast?_answers (s : Session) (steps : List Step) (x : Step) :
    (s.answers (steps ++ [x])).getLast? = some ((s.after steps).step x).2 := by
  rw [answers_append]
  simp [answers]

/-! ## The patches -/

theorem length_patches_step (s : Session) (x : Step) :
    s.patches.length ≤ (s.step x).1.patches.length := by
  cases x <;> simp [step, choose]

/-- A step changes the patch at a position only by the line it adds to it. -/
theorem patches_step (s : Session) (x : Step) {i : Nat} (hi : i < s.patches.length) :
    (s.step x).1.patches[i]? = s.patches[i]?.map (·.addLines (addedTo i [x])) := by
  cases x with
  | addLine j n =>
    by_cases hj : j = i
    · simp [step, addedTo, hj, Patch.addLines, Patch.addLine]
    · simp [step, addedTo, hj]
  | addPatch p => simp [step, addedTo, List.getElem?_append_left hi]
  | _ => simp [step, choose, addedTo]

/-- Steps change the patch at a position only by the lines they add to it. -/
theorem patches_after (s : Session) (steps : List Step) {i : Nat} (hi : i < s.patches.length) :
    (s.after steps).patches[i]? = s.patches[i]?.map (·.addLines (addedTo i steps)) := by
  induction steps generalizing s with
  | nil => simp [after, addedTo]
  | cons x steps ih =>
    have hi' := Nat.lt_of_lt_of_le hi (length_patches_step s x)
    rw [after, ih (s.step x).1 hi', patches_step s x hi, Option.map_map]
    congr 1
    funext p
    simp [addedTo]

/-! ## The choice -/

/-- The name of the runner and the room for reports stay the same, also when the
runner is replaced. -/
theorem runner_and_room_after (s : Session) (steps : List Step) :
    (s.after steps).runner = s.runner ∧ (s.after steps).room = s.room := by
  induction steps generalizing s with
  | nil => exact ⟨rfl, rfl⟩
  | cons x steps ih =>
    rw [after, (ih _).1, (ih _).2]
    cases x <;> exact ⟨rfl, rfl⟩

/-- A choice outlives every step but the replacement of the runner. -/
theorem chosen_after {s : Session} {positions : List Nat} (hs : s.chosen = some positions)
    {steps : List Step} (kept : .renewRunner ∉ steps) :
    (s.after steps).chosen = some positions := by
  induction steps generalizing s with
  | nil => exact hs
  | cons x steps ih =>
    obtain ⟨hx, hsteps⟩ := List.ne_and_not_mem_of_not_mem_cons kept
    refine ih ?_ hsteps
    cases x with
    | renewRunner => exact absurd rfl hx
    | select | run => simp [step, choose, hs]
    | _ => exact hs

/-- A runner that is not asked makes no choice. -/
theorem unchosen_after {s : Session} (hs : s.chosen = none) {steps : List Step}
    (unused : ∀ x ∈ steps, ¬ x.isUse) : (s.after steps).chosen = none := by
  induction steps generalizing s with
  | nil => exact hs
  | cons x steps ih =>
    refine ih ?_ fun y hy => unused y (.tail _ hy)
    cases x with
    | select | run => exact absurd rfl (unused _ (.head _))
    | renewRunner => rfl
    | _ => exact hs

/-- A new runner has not made its choice. -/
theorem unchosen_after_renewRunner (s : Session) {steps : List Step}
    (renewed : steps.getLast? = some .renewRunner) : (s.after steps).chosen = none := by
  obtain ⟨before, rfl⟩ := List.getLast?_eq_some_iff.mp renewed
  rw [after_append]
  rfl

/-! ## What the runner looks at -/

/-- The positions of the patches that are looked at as things stand. -/
def positions (s : Session) : List Nat :=
  (List.range s.patches.length).filter fun i =>
    s.patches[i]?.any (·.isSelected s.cwd s.excludes)

theorem choice_eq_positions (s : Session) : s.choice = s.positions := by
  have hany : ∀ q ∈ s.patches.zipIdx,
      q.1.isSelected s.cwd s.excludes
        = s.patches[q.2]?.any (·.isSelected s.cwd s.excludes) := by
    intro q hq
    rw [List.mem_zipIdx_iff_getElem?.mp hq, Option.any_some]
  unfold choice positions
  rw [List.range_eq_range', ← List.zipIdx_map_snd, List.filter_map]
  exact congrArg (List.map (·.2)) (List.filter_congr hany)

/-- What a runner looks at that was first asked in a session, when steps have
been taken since: the patches that were looked at then, with the lines that
the steps have added to them. -/
def frozen (s : Session) (since : List Step) : List Patch :=
  s.positions.filterMap fun i => s.patches[i]?.map (·.addLines (addedTo i since))

theorem lt_of_mem_positions {s : Session} {i : Nat} (hi : i ∈ s.positions) :
    i < s.patches.length :=
  List.mem_range.mp (List.mem_filter.mp hi).1

theorem filterMap_positions_eq_frozen (s : Session) (since : List Step) :
    s.positions.filterMap ((s.after since).patches[·]?) = s.frozen since :=
  List.filterMap_congr fun _ hi => patches_after s since (lt_of_mem_positions hi)

/-- **What the runner looks at.** As long as it is not replaced, the runner
looks at what it would have looked at when it was first asked, with the lines
that were added since. -/
theorem selection_after {s : Session} (unchosen : s.chosen = none) {since : List Step}
    (used : ∀ x ∈ since.head?, x.isUse) (kept : .renewRunner ∉ since) :
    (s.after since).selection = s.frozen since := by
  rw [← filterMap_positions_eq_frozen, ← choice_eq_positions]
  unfold selection
  cases since with
  | nil => rw [after, unchosen]; rfl
  | cons x since =>
    -- the first of the steps asks the runner, which makes its choice
    have hfirst : (s.step x).1.chosen = some s.choice := by
      cases x with
      | select | run => simp [step, choose, unchosen]
      | _ => exact absurd (used _ rfl) Bool.false_ne_true
    rw [after, chosen_after hfirst fun h => kept (.tail _ h)]
    rfl

/-- The paths of the patches do not change. -/
theorem map_path_frozen (s : Session) (since : List Step) :
    (s.frozen since).map Patch.path
      = s.positions.filterMap fun i => s.patches[i]?.map Patch.path := by
  unfold frozen
  rw [List.map_filterMap]
  simp only [Option.map_map]
  rfl

/-- There is something to look at exactly if a position was chosen. -/
theorem frozen_eq_nil {s : Session} {since : List Step} :
    s.frozen since = [] ↔ s.positions = [] := by
  refine ⟨fun h => ?_, fun h => by rw [frozen, h]; rfl⟩
  refine List.eq_nil_iff_forall_not_mem.mpr fun i hi => ?_
  have hnone := List.filterMap_eq_nil_iff.mp h i hi
  simp [lt_of_mem_positions hi] at hnone

/-! ## What the runner answers -/

/-- **A runner keeps to its first choice.** Take any steps of a session whose
runner has made no choice: first some that end with the replacement of the
runner, or none; then some that do not ask the runner; then some that do not
replace it, the first of which asks it, or none. The runner was first asked,
or is now, in the session behind the first two; the positions of the patches
that are looked at as things stand there are what it keeps to. A selection now
gives the paths of the patches at these positions, and a run now is the review
of these patches with the lines that were added to them since; it starts the
checker if there are such positions, and not otherwise. -/
theorem answers_frozen {s : Session} (unchosen : s.chosen = none)
    {past idle since : List Step}
    (renewed : past = [] ∨ past.getLast? = some .renewRunner)
    (unused : ∀ x ∈ idle, ¬ x.isUse)
    (used : ∀ x ∈ since.head?, x.isUse) (kept : .renewRunner ∉ since) :
    let first := s.after (past ++ idle)
    let steps := past ++ idle ++ since
    (s.answers (steps ++ [.select])).getLast?
        = some (.selected (first.positions.filterMap fun i => first.patches[i]?.map Patch.path)) ∧
      ∀ checker, ∃ o, (s.answers (steps ++ [.run checker])).getLast? = some (.ran o) ∧
        o = review s.room (first.frozen since) s.runner checker ∧
        o.calls = if first.positions = [] then [] else [.check] := by
  intro first steps
  have hpast : (s.after past).chosen = none := by
    rcases renewed with rfl | renewed
    · exact unchosen
    · exact unchosen_after_renewRunner s renewed
  have hfirst : first.chosen = none := by
    show (s.after (past ++ idle)).chosen = none
    rw [after_append]
    exact unchosen_after hpast unused
  have hnow : (s.after steps).selection = first.frozen since := by
    show (s.after (past ++ idle ++ since)).selection = _
    rw [after_append]
    exact selection_after hfirst used kept
  refine ⟨?_, fun checker => ⟨_, ?_, rfl, ?_⟩⟩
  · rw [getLast?_answers, ← map_path_frozen first since, ← hnow]
    rfl
  · obtain ⟨hrunner, hroom⟩ := runner_and_room_after s steps
    rw [getLast?_answers, ← hnow, ← hrunner, ← hroom]
    rfl
  · rw [review_calls]
    simp only [frozen_eq_nil]

/-- A session with one patch that is looked at and one that is not. -/
def onePatch : Session where
  patches := [⟨.ofString "a.py", [1], none⟩, ⟨.ofString "b.py", [], none⟩]
  excludes := []
  cwd := .ofString "/r"
  runner := defaultRunner
  room := 9
  chosen := none

/-- Steps that the choice outlives: each would have changed it before. -/
def onePatch.since : List Step :=
  [.run .missing, .addLine 0 5, .addLine 1 7, .addPatch ⟨.ofString "c.py", [2], none⟩,
    .exclude "a*"]

/-- Only the line that is added to the chosen patch is seen. -/
theorem answers_onePatch :
    (onePatch.answers ([.renewRunner] ++ [.move (.ofString "/")] ++ onePatch.since
        ++ [.select])).getLast? = some (.selected [.ofString "a.py"]) ∧
      ∃ o, (onePatch.answers ([.renewRunner] ++ [.move (.ofString "/")] ++ onePatch.since
        ++ [.run .missing])).getLast? = some (.ran o) ∧
        o = review 9 [⟨.ofString "a.py", [1, 5], none⟩] defaultRunner .missing ∧
        o.calls = [.check] := by
  have hpositions :
      (onePatch.after ([.renewRunner] ++ [.move (.ofString "/")])).positions = [0] := by
    decide +kernel
  obtain ⟨hselect, hrun⟩ := @answers_frozen onePatch rfl [.renewRunner]
    [.move (.ofString "/")] onePatch.since (.inr rfl) (by simp [Step.isUse])
    (by simp [onePatch.since, Step.isUse]) (by simp [onePatch.since])
  obtain ⟨o, hran, ho, hcalls⟩ := hrun .missing
  rw [hpositions] at hselect hcalls
  refine ⟨hselect, o, hran, ho.trans ?_, hcalls⟩
  rw [frozen, hpositions]
  rfl

end Session

end ChangeReview
