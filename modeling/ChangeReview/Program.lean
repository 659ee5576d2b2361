import ChangeReview.CommandLine
import ChangeReview.Config
import ChangeReview.Review.Run
import ChangeReview.Settings.Basic
import ChangeReview.Text.Upper

/-!
# The program

A run reads the command line and the settings, gets hold of a diff, reviews what the diff adds to
source files, and shows the messages. Its answer is one value: how it ends, what it writes to
standard output, what it logs and which commands it starts. Nothing is written to standard output
unless the review was made, so a failed review never looks like a clean one.

Showing the messages of a review that was made can fail too: the number of a line may be too long to
be written, and a text that holds half of a surrogate pair has no bytes. The run then breaks off. As
text, the messages are shown one by one, so those in front of the one that cannot be shown are on
standard output by then. As JSON, which spells halves of pairs with escapes, they are shown all at
once or not at all.

Of the log only what reaches the level of the settings is shown. The level decides nothing else: the
entries are made in any case, and left out at the very end.
-/

namespace ChangeReview

/-- The diff that the version control gives for a commit. -/
def makeDiff (git : Child) (commit : String) : Outcome String := do
  let command := Command.diff commit
  Outcome.call command
  match git with
  | .missing => Outcome.ofExcept (.error (.missingExecutable command.executable))
  | .failed reason => Outcome.ofExcept (.error (.notStarted reason))
  | .undecodable e => Outcome.ofExcept (.error (.read (.undecodable e)))
  | .exited stdout stderr status =>
    if status = 0 then return stdout
    else Outcome.ofExcept (.error (.noDiff commit (String.ofList (Text.trim stderr.toList))))

/-- The diff that a run is about. -/
def readDiff (w : World) (source : Option DiffFile) (commit : String) : Outcome String :=
  match source with
  | none => makeDiff w.git commit
  | some .stdin => Outcome.ofExcept (w.readStdin.mapError .read)
  | some (.named name) => Outcome.ofExcept ((w.readText (Path.ofString name)).mapError .read)
  | some .unnamed => Outcome.ofExcept (.error .unnamedFile)

/-- The review that a run makes. -/
def reviewChange (w : World) (options : Options) (settings : Settings) :
    Outcome (List Message) := do
  let commit :=
    match options.commit with
    | none | some "" => settings.defaultCommit
    | some commit => commit
  let diff ← readDiff w options.diffFile commit
  let files ← Outcome.ofExcept ((ChangedFile.read diff (some w.cwd)).mapError .change)
  let excludes ← Config.load w (w.cwd / Path.ofString settings.configFile)
  let patches := (files.map Patch.ofChangedFile).filter (·.isSelected w.cwd excludes)
  review w.room patches defaultRunner w.checker

/-- The ranks that names of levels stand for. -/
def levelRanks : List (String × Nat) :=
  [("CRITICAL", 50), ("FATAL", 50), ("ERROR", 40), ("WARN", 30), ("WARNING", 30), ("INFO", 20),
    ("DEBUG", 10), ("NOTSET", 0)]

/-- Why a message cannot be shown. -/
inductive OutputError where
  /-- The number of its line is too long. -/
  | longNumber
  /-- It holds half of a surrogate pair. -/
  | unpaired (e : Text.Unpaired)
  deriving DecidableEq, Repr

/-- The wording of why a message cannot be shown. -/
def OutputError.message : OutputError → String
  | .longNumber => Text.limitMessage none
  | .unpaired e => e.message

/-- Why a run breaks off. -/
inductive Abort where
  /-- The settings name a level that there is not. -/
  | unknownLevel (name : String)
  /-- The settings cannot be read. -/
  | settings (e : ReadError)
  /-- A message cannot be shown. -/
  | output (e : OutputError)
  deriving DecidableEq, Repr

/-- The wording of why a run breaks off. -/
def Abort.message : Abort → String
  | .unknownLevel name => s!"Unknown level: {Text.quoted name}"
  | .settings e => e.message
  | .output e => e.message

/-- How a run ends. -/
inductive Ending where
  /-- The command line was carried out, with this exit status. -/
  | finished (status : Nat)
  /-- The command line was not carried out: the exit status, and what is written to standard error.
  -/
  | dismissed (status : Nat) (stderr : String)
  /-- The run broke off. -/
  | aborted (cause : Abort)
  deriving DecidableEq, Repr

/-- What comes of a run. -/
structure Answer where
  ending : Ending
  stdout : String
  events : List Event
  calls : List Command

/-- A message as a line of standard output. -/
def Message.printed (m : Message) : Except OutputError String :=
  match m.render with
  | none => .error .longNumber
  | some line => (line.text.map (· ++ "\n")).mapError .unpaired

/-- What is shown of messages: what is written, and why it stops there if it does not go on. -/
structure Shown where
  stdout : String
  error : Option OutputError
  deriving DecidableEq, Repr

/-- The messages as lines of text, one by one. -/
def showText : List Message → Shown
  | [] => ⟨"", none⟩
  | m :: ms =>
    match m.printed with
    | .error e => ⟨"", some e⟩
    | .ok line => ⟨line ++ (showText ms).stdout, (showText ms).error⟩

/-- The messages as JSON, all at once. The numbers of their lines are all the numbers there are. -/
def showJson (messages : List Message) : Shown :=
  if messages.any fun m => Text.isLong m.line then ⟨"", some .longNumber⟩
  else ⟨(Json.arr (messages.map Message.toJson)).render ++ "\n", none⟩

/-- The messages as they are shown. -/
def showMessages (format : Format) (messages : List Message) : Shown :=
  match format with
  | .json => showJson messages
  | .text => showText messages

/-- What comes of a review: its messages, or a last entry in the log that says why there are none.
-/
def answerReview (options : Options) (threshold : Nat) (o : Outcome (List Message)) : Answer :=
  let shown (events : List Event) : List Event := events.filter fun e => threshold ≤ e.level.rank
  match o.result with
  | .error cause => ⟨.finished 2, "", shown (o.events ++ [.failed cause]), o.calls⟩
  | .ok messages =>
    let status := if options.exitCode && !messages.isEmpty then 1 else 0
    let ⟨stdout, error⟩ := showMessages options.format messages
    ⟨error.elim (.finished status) fun e => .aborted (.output e), stdout, shown o.events, o.calls⟩

/-- What comes of a run in a world with a command line that asks for something. -/
def runWith (w : World) (options : Options) : Answer :=
  match Settings.read w with
  | .error e => ⟨.aborted (.settings e), "", [], []⟩
  | .ok settings =>
    let level := Text.upper settings.logLevel
    match levelRanks.lookup level with
    | none => ⟨.aborted (.unknownLevel level), "", [], []⟩
    | some threshold => answerReview options threshold (reviewChange w options settings)

/-- What comes of a run in a world. -/
def run (w : World) (argv : List String) : Answer :=
  match Options.parse argv with
  | .error .help => ⟨.dismissed 0 "", helpText, [], []⟩
  | .error (.usage e) => ⟨.dismissed 2 e.report, "", [], []⟩
  | .ok options => runWith w options

end ChangeReview
