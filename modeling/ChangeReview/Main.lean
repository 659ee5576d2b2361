import ChangeReview.Program

/-!
# The outermost layer

Gathers what a run can see, asks for its answer, and carries the answer out: the log goes to
standard error, and the exit status to the caller. Nothing is decided here.

Child processes are not started from here. What the version control and the checker write is read
from the files that the variables `CHANGE_REVIEW_DIFF` and `CHANGE_REVIEW_REPORT` name; a variable
that is not set stands for an executable that is missing.
-/

namespace ChangeReview.Main

/-- What stands at a place, as far as a run is concerned. -/
def entryAt? (place : String) : IO (Option Entry) := do
  try
    return some (.file (← IO.FS.readBinFile place).toList)
  catch
    | .inappropriateType .. => return some .directory
    | .noFileOrDirectory .. => return none
    | .permissionDenied _ _ details => return some (.locked details)
    | e => return some (.hidden e.toString)

/-- What stands at a path, as an entry of a world. -/
def entriesAt (cwd path : Path) : IO (List (Path × Entry)) := do
  return ((← entryAt? (cwd / path).text).map (path, ·)).toList

/-- The bytes of a file, or none. -/
def readBytes (place : String) : IO (List UInt8) := do
  match ← entryAt? place with
  | some (.file bytes) => return bytes
  | _ => return []

/-- The environment, variable by variable. -/
def environment : IO (List (String × String)) := do
  let bytes ← readBytes "/proc/self/environ"
  let words := (((Text.Utf8.decode bytes).toOption.map String.ofList).getD "").splitOn "\x00"
  return words.filterMap fun v =>
    match v.toList.span (· != '=') with
    | (_, []) => none
    | (name, _ :: value) => some (String.ofList name, String.ofList value)

/-- What a child process would do, by the variable that names its output. -/
def child (env : List (String × String)) (name : String) : IO Child := do
  match env.lookup name with
  | none => return .missing
  | some place =>
    match Text.Utf8.decode (← readBytes place) with
    | .ok cs => return .exited (String.ofList cs) "" 0
    | .error e => return .undecodable e

/-- How many arrays and objects one in the other a report is read with. -/
def room : Nat := 990

/-- The world around this run, as far as its command line and its settings reach. -/
def world (argv : List String) : IO World := do
  let cwd := Path.ofString (← IO.currentDir).toString
  let env ← environment
  let git ← child env "CHANGE_REVIEW_DIFF"
  let checker ← child env "CHANGE_REVIEW_REPORT"
  let w : World := ⟨cwd, ← entriesAt cwd Settings.envFile, env, [], git, checker, room⟩
  let config ←
    match Settings.read w with
    | .ok settings => entriesAt cwd (Path.ofString settings.configFile)
    | .error _ => pure []
  let w := { w with entries := w.entries ++ config }
  match Options.parse argv with
  | .ok { diffFile := some .stdin, .. } => return { w with stdin := ← readBytes "/dev/stdin" }
  | .ok { diffFile := some (.named name), .. } =>
    return { w with entries := w.entries ++ (← entriesAt cwd (Path.ofString name)) }
  | _ => return w

/-- Carries an answer out and gives the exit status. -/
def carryOut (a : Answer) : IO UInt32 := do
  for e in a.events do
    IO.eprintln s!"{e.level.name}:{e.logger}:{e.message}"
  IO.print a.stdout
  match a.ending with
  | .finished status => return UInt32.ofNat status
  | .dismissed status stderr =>
    IO.eprint stderr
    return UInt32.ofNat status
  | .aborted cause =>
    IO.eprintln cause.message
    return 1

end ChangeReview.Main

/-- Runs the program on the words of its command line. -/
def main (argv : List String) : IO UInt32 := do
  ChangeReview.Main.carryOut (ChangeReview.run (← ChangeReview.Main.world argv) argv)
