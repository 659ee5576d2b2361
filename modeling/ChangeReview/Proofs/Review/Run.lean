import ChangeReview.Review.Run
import ChangeReview.Review.Session

/-!
# What a review comes to

A review puts several steps together, and what is asked of it later is only
which commands it starts and what its result is. Both are worked out here,
once, so that no other module has to take the steps apart: a review of no
patches does nothing at all, and a review of any others starts the checker
once and gives what its report comes to.

The same is done for the patches that the runner of a session looks at when
it is first asked: they are the selected ones, in order.
-/

namespace ChangeReview

/-! ## Results and calls of steps that are put together -/

namespace Outcome

variable {α β : Type}

theorem result_pure (a : α) : (pure a : Outcome α).result = .ok a := rfl

theorem result_call (c : Command) : (call c).result = .ok () := rfl

/-- The result of two steps is that of their results. -/
theorem result_bind (x : Outcome α) (f : α → Outcome β) :
    (x >>= f).result = x.result >>= fun a => (f a).result := by
  show (Outcome.bind x f).result = _
  unfold Outcome.bind
  cases x.result with
  | error e => rfl
  | ok a => rfl

/-- The second step starts from the result of the first. -/
theorem result_bind_of_ok {x : Outcome α} {a : α} (f : α → Outcome β) (h : x.result = .ok a) :
    (x >>= f).result = (f a).result := by
  rw [result_bind, h]
  rfl

theorem calls_bind_of_ok {x : Outcome α} {a : α} (f : α → Outcome β) (h : x.result = .ok a) :
    (x >>= f).calls = x.calls ++ (f a).calls := by
  show (Outcome.bind x f).calls = _
  unfold Outcome.bind
  rw [h]

/-- A second step that starts no command, whatever it starts from, leaves the
calls of the first. -/
theorem calls_bind_of_silent (x : Outcome α) (f : α → Outcome β)
    (silent : ∀ a, (f a).calls = []) : (x >>= f).calls = x.calls := by
  show (Outcome.bind x f).calls = _
  unfold Outcome.bind
  cases x.result with
  | error e => rfl
  | ok a => simp [silent a]

end Outcome

/-! ## The checker -/

/-- The checker is started once, however it ends. -/
theorem runChecker_calls (checker : Child) : (runChecker checker).calls = [.check] := by
  unfold runChecker
  rw [Outcome.calls_bind_of_ok _ (Outcome.result_call _)]
  cases checker with
  | missing =>
    dsimp only
    rw [Outcome.calls_bind_of_ok _ (Outcome.result_pure _)]
    split <;> rfl
  | failed reason | undecodable e => rfl
  | exited stdout stderr status =>
    dsimp only
    rw [Outcome.calls_bind_of_ok _ (Outcome.result_pure _)]
    split <;> rfl

/-- What a checker writes for its report. One that is missing writes nothing. -/
inductive Child.Writes : Child → String → Prop
  | exited {stdout stderr : String} {status : Int} : Writes (.exited stdout stderr status) stdout
  | missing : Writes .missing ""

/-- The report is what the checker writes. -/
theorem runChecker_writes {checker : Child} {report : String} (h : checker.Writes report) :
    (runChecker checker).result = .ok report := by
  unfold runChecker
  rw [Outcome.result_bind_of_ok _ (Outcome.result_call _)]
  cases h with
  | exited | missing =>
    dsimp only
    rw [Outcome.result_bind_of_ok _ (Outcome.result_pure _)]
    split <;> rfl

/-! ## Reviews -/

/-- **What a review starts.** The checker, once, if there is a patch; nothing
otherwise. How the checker ends, and what becomes of its report, does not
matter. -/
theorem review_calls (room : Nat) (patches : List Patch) (runner : String) (checker : Child) :
    (review room patches runner checker).calls = if patches = [] then [] else [.check] := by
  unfold review
  split
  · rfl
  · rw [Outcome.calls_bind_of_silent, runChecker_calls]
    intro report
    rw [Outcome.calls_bind_of_silent]
    · rfl
    · intro diagnostics
      rw [Outcome.calls_bind_of_silent]
      · rfl
      · exact fun _ => rfl

/-- **What a review gives** where the checker writes a report: the messages of
the diagnostics in it, unless it cannot be read or a placement is refused. -/
theorem review_result_of_writes {ps : List Patch} {checker : Child} {report : String}
    (hne : ps ≠ []) (h : checker.Writes report) (room : Nat) (runner : String) :
    (review room ps runner checker).result =
      ((Diagnostic.parse room report).mapError .report >>= fun ds =>
        (Diagnostic.messages ps runner ds).mapError .placement) := by
  unfold review
  rw [if_neg hne, Outcome.result_bind_of_ok _ (runChecker_writes h)]
  simp only [Outcome.result_bind]
  cases Diagnostic.parse room report with
  | error e => rfl
  | ok ds =>
    show ((Diagnostic.messages ps runner ds).mapError Failure.placement >>= _)
      = (Diagnostic.messages ps runner ds).mapError Failure.placement
    cases Diagnostic.messages ps runner ds <;> rfl

/-- Why a checker writes no report: it cannot be started, or what it writes is
no text. -/
inductive Child.Fails : Child → Failure → Prop
  | failed {reason : String} : Fails (.failed reason) (.notStarted reason)
  | undecodable {e : Text.Utf8.DecodeError} : Fails (.undecodable e) (.read (.undecodable e))

/-- A checker writes a report or fails to. -/
theorem Child.writes_or_fails (checker : Child) :
    (∃ report, checker.Writes report) ∨ ∃ cause, checker.Fails cause := by
  cases checker with
  | missing => exact .inl ⟨_, .missing⟩
  | failed reason => exact .inr ⟨_, .failed⟩
  | undecodable e => exact .inr ⟨_, .undecodable⟩
  | exited stdout stderr status => exact .inl ⟨_, .exited⟩

/-- What a review gives where the checker writes no report. -/
theorem review_result_of_fails {ps : List Patch} {checker : Child} {cause : Failure}
    (hne : ps ≠ []) (h : checker.Fails cause) (room : Nat) (runner : String) :
    (review room ps runner checker).result = .error cause := by
  unfold review
  rw [if_neg hne]
  cases h <;> rfl

/-- What it gives where the report can be read: the messages, or the first
placement that is refused. -/
theorem review_result {room : Nat} {patches : List Patch} {stdout : String} {ds : List Diagnostic}
    (hne : patches ≠ []) (hparse : Diagnostic.parse room stdout = .ok ds)
    (runner stderr : String) (status : Int) :
    (review room patches runner (.exited stdout stderr status)).result
      = (Diagnostic.messages patches runner ds).mapError .placement := by
  rw [review_result_of_writes hne .exited, hparse]
  rfl

/-- **What a review depends on.** Of its patches only whether there are any,
and the messages that diagnostics give on them. -/
theorem review_congr {ps qs : List Patch} {runner : String} (hnil : ps = [] ↔ qs = [])
    (hmessages : ∀ ds, Diagnostic.messages ps runner ds = Diagnostic.messages qs runner ds)
    (room : Nat) (checker : Child) :
    review room ps runner checker = review room qs runner checker := by
  unfold review
  simp only [hnil, hmessages]

/-! ## The first choice of a runner -/

namespace Session

/-- What a list lists at the positions of its own entries that pass a test
are these entries. -/
theorem filterMap_zipIdx (keep : Patch → Bool) (before ps : List Patch) :
    (((ps.zipIdx before.length).filter fun (p, _) => keep p).map (·.2)).filterMap
        ((before ++ ps)[·]?)
      = ps.filter keep := by
  induction ps generalizing before with
  | nil => rfl
  | cons p ps ih =>
    have hrest := ih (before ++ [p])
    rw [List.length_append, List.length_singleton, List.append_assoc, List.singleton_append]
      at hrest
    cases hk : keep p <;> simp [List.zipIdx_cons, hk, hrest]

/-- A runner that has not made its choice looks at the selected patches. -/
theorem selection_of_unchosen {s : Session} (h : s.chosen = none) :
    s.selection = s.patches.filter (·.isSelected s.cwd s.excludes) := by
  unfold selection
  rw [h]
  exact filterMap_zipIdx (·.isSelected s.cwd s.excludes) [] s.patches

/-- A first run is a review of them. -/
theorem run_of_unchosen {s : Session} (h : s.chosen = none) (checker : Child) :
    (s.step (.run checker)).2
      = .ran (review s.room (s.patches.filter (·.isSelected s.cwd s.excludes)) s.runner
          checker) := by
  rw [← selection_of_unchosen h]
  rfl

end Session

end ChangeReview
