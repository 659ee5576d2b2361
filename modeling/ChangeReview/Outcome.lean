import ChangeReview.Change.Parser
import ChangeReview.Review.Placement
import ChangeReview.World

/-!
# Outcomes

What a step of a run comes to: a result, or the failure that ended it, together with what it left in
the log and the commands it started. Both are kept when the step fails. Steps are put together with
`Outcome.bind`: the second starts only if the first had a result, and what the first left comes
first.
-/

namespace ChangeReview

/-- Why a review cannot be made. -/
inductive Failure where
  /-- The diff cannot be read from the change. -/
  | change (e : ChangeError)
  /-- The report of the checker cannot be read. -/
  | report (e : ReportError)
  /-- A diagnostic cannot be placed. -/
  | placement (e : DuplicateLine)
  /-- A file cannot be read. -/
  | read (e : ReadError)
  /-- The file of the diff has no name. -/
  | unnamedFile
  /-- The executable that makes the diff is missing. -/
  | missingExecutable (name : String)
  /-- A child process could not be started. -/
  | notStarted (reason : String)
  /-- Making the diff failed; what was said of it is shown. -/
  | noDiff (commit stderr : String)
  deriving DecidableEq, Repr

/-- The wording of why a review cannot be made. -/
def Failure.message : Failure → String
  | .change e => e.message
  | .report e => e.message
  | .placement e => e.message
  | .read e => e.message
  | .unnamedFile => "expected str, bytes or os.PathLike object, not list"
  | .missingExecutable name => notFoundMessage name
  | .notStarted reason => reason
  | .noDiff commit stderr => s!"git diff {commit} failed: {stderr}"

/-- How grave an entry of the log is. -/
inductive Level where
  | info
  | warning
  | error
  deriving DecidableEq, Repr

/-- The rank of a level among all the numbers a threshold can have. -/
def Level.rank : Level → Nat
  | .info => 20
  | .warning => 30
  | .error => 40

/-- The name of a level. -/
def Level.name : Level → String
  | .info => "INFO"
  | .warning => "WARNING"
  | .error => "ERROR"

/-- An entry of the log. -/
inductive Event where
  /-- The checker complained. -/
  | complaint (text : String)
  /-- The checker wrote its report. -/
  | report (text : String)
  /-- So many of so many diagnostics gave messages. -/
  | placed (messages diagnostics : Nat)
  /-- The configuration file of this name is of no use, for the reason given. -/
  | badConfig (name reason : String)
  /-- The review cannot be made. -/
  | failed (cause : Failure)
  deriving DecidableEq, Repr

namespace Event

/-- How grave the entry is. -/
def level : Event → Level
  | .complaint _ => .warning
  | .report _ => .info
  | .placed .. => .info
  | .badConfig .. => .warning
  | .failed _ => .error

/-- The part of the program that the entry comes from. -/
def logger : Event → String
  | .complaint _ | .report _ | .placed .. => "pyright_review.runners.pyright"
  | .badConfig .. | .failed _ => "pyright_review.main"

/-- The text of the entry. -/
def message : Event → String
  | .complaint text => s!"pyright-review:\n\n{text}"
  | .report text => text
  | .placed messages diagnostics => s!"{messages} of {diagnostics} diagnostics are on added lines"
  | .badConfig name reason => s!"Invalid {name}: {reason}"
  | .failed cause => s!"Review failed: {cause.message}"

end Event

/-- A command that a run starts. -/
inductive Command where
  /-- Shows what changed since a commit. -/
  | diff (commit : String)
  /-- Checks the whole project. -/
  | check
  deriving DecidableEq, Repr

/-- The words of the command line, the executable first. -/
def Command.words : Command → List String
  | .diff commit => ["git", "diff", "--no-color", commit]
  | .check => ["npx", "pyright", "--lib", "--outputjson"]

/-- The name of the executable. -/
def Command.executable (c : Command) : String := c.words.headD ""

/-- What a step of a run comes to. -/
structure Outcome (α : Type) where
  result : Except Failure α
  events : List Event
  calls : List Command

namespace Outcome

variable {α β : Type}

/-- A step that only has a result. -/
def ofExcept (result : Except Failure α) : Outcome α := ⟨result, [], []⟩

/-- A step that leaves an entry in the log. -/
def emit (e : Event) : Outcome Unit := ⟨.ok (), [e], []⟩

/-- A step that starts a command. -/
def call (c : Command) : Outcome Unit := ⟨.ok (), [], [c]⟩

/-- A step, and the step that takes up its result. -/
protected def bind (x : Outcome α) (f : α → Outcome β) : Outcome β :=
  match x.result with
  | .error e => ⟨.error e, x.events, x.calls⟩
  | .ok a => ⟨(f a).result, x.events ++ (f a).events, x.calls ++ (f a).calls⟩

instance : Monad Outcome where
  pure a := ofExcept (.ok a)
  bind := Outcome.bind

end Outcome

end ChangeReview
