import ChangeReview.Proofs.Review.Frozen

/-!
# A run leaves nothing behind but the choice of its runner

A run can fail at many points: the checker is missing or cannot be started,
its report cannot be read, a placement is refused. By then the runner has
chosen the patches it looks at, and that is all that the run has done to the
session. A selection has done as much, so whether a step is a run or a
selection, and which checker a run met, shows in the answer of this step and
in no other (`Session.step_of_isUse`).

A second use finds the choice made and changes nothing at all. This is why a
run may be tried again as often as one likes, and answers each time as it
would have answered at first (`Session.answers_runs`).
-/

namespace ChangeReview.Session

/-! ## What a use leaves behind -/

/-- **A step that asks the runner leaves its choice behind**, and nothing
else. -/
theorem step_of_isUse (s : Session) {x : Step} (hx : x.isUse) : (s.step x).1 = s.choose := by
  cases x with
  | select | run => rfl
  | _ => exact absurd hx Bool.false_ne_true

/-- Where the choice is made already, nothing at all is left behind. -/
theorem choose_of_isSome {s : Session} (h : s.chosen.isSome) : s.choose = s := by
  obtain ⟨positions, hpositions⟩ := Option.isSome_iff_exists.mp h
  unfold choose
  rw [hpositions, Option.getD_some, ← hpositions]

@[simp] theorem choose_choose (s : Session) : s.choose.choose = s.choose :=
  choose_of_isSome rfl

/-! ## Runs in a row -/

/-- What a run answers as things stand. -/
def outcome (s : Session) (checker : Child) : Outcome (List Message) :=
  review s.room s.selection s.runner checker

theorem step_run (s : Session) (checker : Child) :
    s.step (.run checker) = (s.choose, .ran (s.outcome checker)) := rfl

@[simp] theorem outcome_choose (s : Session) : s.choose.outcome = s.outcome := rfl

/-- **Runs in a row answer each as if it were the first**, and together they
leave behind what one of them leaves. -/
theorem answers_runs (s : Session) (checkers : List Child) (checker : Child)
    (future : List Step) :
    s.answers (checkers.map .run ++ .run checker :: future)
      = checkers.map (.ran ∘ s.outcome) ++ .ran (s.outcome checker) :: s.choose.answers future := by
  induction checkers generalizing s with
  | nil => rfl
  | cons c checkers ih =>
    show Answer.ran (s.outcome c) :: s.choose.answers (checkers.map .run ++ _) = _
    rw [ih s.choose, choose_choose, outcome_choose]
    rfl

/-! ## In a session -/

/-- **A run leaves nothing behind but the choice of its runner.** Take a run
anywhere in a session, with steps before it and steps after it. With a
selection in its place, all other steps answer the same. So they do with
another checker, and after any number of runs that were tried in vain: each
try answers as its own checker has it, and neither the last one nor any step
after it knows of the tries before. Where the runner had made its choice
earlier, the run might as well be left out. -/
theorem answers_of_run (s : Session) (past future : List Step) :
    ∃ (outcome : Child → Outcome (List Message)) (paths : List Path) (later : List Answer),
      s.answers (past ++ .select :: future) = s.answers past ++ .selected paths :: later ∧
      (∀ checker, s.answers (past ++ .run checker :: future)
        = s.answers past ++ .ran (outcome checker) :: later) ∧
      (∀ (tries : List Child) checker, s.answers (past ++ (tries.map .run ++ .run checker :: future))
        = s.answers past ++ (tries.map (.ran ∘ outcome) ++ .ran (outcome checker) :: later)) ∧
      ((s.after past).chosen.isSome → s.answers (past ++ future) = s.answers past ++ later) := by
  -- all is told in the session before the run, from which the later steps go on
  refine ⟨(s.after past).outcome, (s.after past).selection.map Patch.path,
    (s.after past).choose.answers future, ?_, fun checker => ?_, fun tries checker => ?_,
    fun hchosen => ?_⟩
  · rw [answers_append, answers, step_of_isUse _ rfl]
    rfl
  · rw [answers_append, answers, step_run]
  · rw [answers_append, answers_runs]
  · rw [answers_append, choose_of_isSome hchosen]

/-- A report that has no findings. -/
def emptyReport : String := "\x7b\"diagnostics\": []\x7d"

/-- **A failed run can be tried again**: with the checker missing at first,
neither the second try nor the selection after it answers any differently. -/
theorem answers_tryAgain :
    ∃ (failed ran : Outcome (List Message)) (first second : List Path),
      onePatch.answers [.select, .run .missing, .run (.exited emptyReport "" 0), .select]
        = [.selected first, .ran failed, .ran ran, .selected second] ∧
      onePatch.answers [.select, .run (.exited emptyReport "" 0), .select]
        = [.selected first, .ran ran, .selected second] ∧
      onePatch.answers [.select, .select] = [.selected first, .selected second] ∧
      failed.result.isOk = false ∧ ran.result = .ok [] ∧ ran.calls = [.check] := by
  obtain ⟨outcome, paths, later, -, hrun, htries, hleftOut⟩ :=
    answers_of_run onePatch [.select] [.select]
  have htold (checker : Child) :
      Answer.ran (onePatch.outcome checker) = .ran (outcome checker) ∧
        [.selected (onePatch.selection.map Patch.path)] = later :=
    List.cons.inj (List.cons.inj (hrun checker)).2
  have houtcome (checker : Child) : onePatch.outcome checker = outcome checker :=
    Answer.ran.inj (htold checker).1
  have hlater := (htold .missing).2
  refine ⟨outcome .missing, outcome (.exited emptyReport "" 0),
    onePatch.selection.map Patch.path, onePatch.selection.map Patch.path, ?_, ?_, ?_, ?_⟩
  · rw [hlater]
    exact htries [.missing] (.exited emptyReport "" 0)
  · rw [hlater]
    exact hrun (.exited emptyReport "" 0)
  · rw [hlater]
    exact hleftOut rfl
  · rw [← houtcome, ← houtcome]
    decide +kernel

end ChangeReview.Session
