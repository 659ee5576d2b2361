import ChangeReview.Outcome
import ChangeReview.Review.Selection
import ChangeReview.Text.Blank

/-!
# Running a review

A review of some patches starts the checker on the whole project, once, and turns what the checker
finds on added lines into messages. Where there is nothing to review the checker is not started. A
checker that is missing is like one that says so and writes nothing; since nothing is no report, the
review fails all the same. How the checker ends does not matter, only what it writes.
-/

namespace ChangeReview

/-- The report of the checker, what it complained of going to the log. -/
def runChecker (checker : Child) : Outcome String := do
  Outcome.call .check
  let (stdout, stderr) ←
    match checker with
    | .missing => pure ("", notFoundMessage Command.check.executable)
    | .failed reason => Outcome.ofExcept (.error (.notStarted reason))
    | .undecodable e => Outcome.ofExcept (.error (.read (.undecodable e)))
    | .exited stdout stderr _ => pure (stdout, stderr)
  let complaint := Text.trim stderr.toList
  if complaint ≠ [] then
    Outcome.emit (.complaint (String.ofList complaint))
  Outcome.emit (.report stdout)
  return stdout

/-- The messages of a review of these patches, the report being read with so much room. -/
def review (room : Nat) (patches : List Patch) (runner : String) (checker : Child) :
    Outcome (List Message) := do
  if patches = [] then
    return []
  let report ← runChecker checker
  let diagnostics ← Outcome.ofExcept ((Diagnostic.parse room report).mapError .report)
  let messages ←
    Outcome.ofExcept ((Diagnostic.messages patches runner diagnostics).mapError .placement)
  Outcome.emit (.placed messages.length diagnostics.length)
  return messages

/-- The name that messages carry unless the runner has another one. -/
def defaultRunner : String := "PyrightRunner"

end ChangeReview
