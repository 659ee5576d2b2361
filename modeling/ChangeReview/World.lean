import ChangeReview.Path
import ChangeReview.Text.Lines
import ChangeReview.Text.Quoted
import ChangeReview.Text.Utf8

/-!
# The world around a run

What a run can see of the machine it runs on, as one value: the current directory, the files, the
environment, the standard input, and what the two child processes would do if they were started.
Nothing in a run changes any of it.

Files are looked up by path alone: a relative path is taken from the current directory and double
dots are carried out on the names. Looking can fail: a file may not be open to a run, and a path may
be such that the machine does not even say whether there is a file. Text is read strictly as UTF-8,
and every kind of line end in it becomes a line feed. What a child process writes has been decoded
already, or found to be no text, and is taken as it is.
-/

namespace ChangeReview

/-- What comes of starting a child process. -/
inductive Child where
  /-- There is no such executable. -/
  | missing
  /-- It cannot be started, for the reason given. -/
  | failed (reason : String)
  /-- It runs to its end, but writes what is no text. -/
  | undecodable (e : Text.Utf8.DecodeError)
  /-- It runs to its end. -/
  | exited (stdout stderr : String) (status : Int)
  deriving DecidableEq, Repr

/-- What stands at a path. -/
inductive Entry where
  | file (bytes : List UInt8)
  | directory
  /-- A file that cannot be opened, for the reason given. -/
  | locked (reason : String)
  /-- Whatever it is: asking whether it is a file fails, for the reason given. -/
  | hidden (reason : String)
  deriving DecidableEq, Repr

/-- The machine around a run. -/
structure World where
  cwd : Path
  /-- What is said to stand at which path; a later entry replaces an earlier one. -/
  entries : List (Path × Entry)
  /-- The environment, in order. -/
  env : List (String × String)
  /-- The bytes on standard input. -/
  stdin : List UInt8
  git : Child
  checker : Child
  /-- How many arrays and objects one in the other a report is read with: what is left of the stack
  when the reading starts has no room for more. -/
  room : Nat

/-- Why a file cannot be read as text. -/
inductive ReadError where
  | notFound (name : String)
  | isDirectory (name : String)
  /-- The machine refuses, for the reason given. -/
  | refused (reason : String)
  | undecodable (e : Text.Utf8.DecodeError)
  deriving DecidableEq, Repr

/-- The wording for bytes that are no text. -/
def Text.Utf8.DecodeError.message (e : DecodeError) : String :=
  let fault :=
    match e.fault with
    | .start => "invalid start byte"
    | .continuation => "invalid continuation byte"
    | .ending => "unexpected end of data"
  let bytes :=
    if e.length = 1 then
      s!"byte 0x{String.ofList (Text.Hex.digits 2 e.byte)} in position {e.position}"
    else s!"bytes in position {e.position}-{e.position + e.length - 1}"
  s!"'utf-8' codec can't decode {bytes}: {fault}"

/-- The wording for a file or an executable that is not there. -/
def notFoundMessage (name : String) : String :=
  s!"[Errno 2] No such file or directory: {Text.quoted name}"

/-- The wording of why a file cannot be read as text. -/
def ReadError.message : ReadError → String
  | .notFound name => notFoundMessage name
  | .isDirectory name => s!"[Errno 21] Is a directory: {Text.quoted name}"
  | .refused reason => reason
  | .undecodable e => e.message

namespace World

/-- The place that a path names. -/
def locate (w : World) (p : Path) : Path := (w.cwd / p).normalize

/-- What is said to stand at a path. -/
def said? (w : World) (p : Path) : Option Entry :=
  (w.entries.reverse.find? fun e => w.locate e.1 = w.locate p).map (·.2)

/-- What stands at a path: what is said to, or a directory above something that is there. -/
def entry? (w : World) (p : Path) : Option Entry :=
  let place := w.locate p
  match w.said? p with
  | some e => some e
  | none =>
    -- A directory need not be listed: whatever lies above something that is there is one.
    if place = w.cwd.normalize || place.isAbove w.cwd.normalize ||
        w.entries.any fun e => place.isAbove (w.locate e.1) then
      some .directory
    else none

/-- The bytes of the file at a path, if one is there that can be opened. -/
def file? (w : World) (p : Path) : Option (List UInt8) :=
  match w.entry? p with
  | some (.file bytes) => some bytes
  | _ => none

/-- The bytes of the file at a path where it does not matter if there is one, as long as the machine
does not refuse. -/
def optionalFile (w : World) (p : Path) : Except ReadError (Option (List UInt8)) :=
  match w.entry? p with
  | some (.file bytes) => .ok (some bytes)
  | some (.locked reason) | some (.hidden reason) => .error (.refused reason)
  | some .directory | none => .ok none

/-- The text that bytes write, line ends unified. -/
def decodeText (bytes : List UInt8) : Except ReadError String :=
  match Text.Utf8.decode bytes with
  | .ok cs => .ok (String.ofList (Text.unifyBreaks cs))
  | .error e => .error (.undecodable e)

/-- The text of the file at a path. -/
def readText (w : World) (p : Path) : Except ReadError String :=
  match w.entry? p with
  | none => .error (.notFound p.text)
  | some .directory => .error (.isDirectory p.text)
  | some (.locked reason) | some (.hidden reason) => .error (.refused reason)
  | some (.file bytes) => decodeText bytes

/-- The text on standard input. -/
def readStdin (w : World) : Except ReadError String := decodeText w.stdin

end World

end ChangeReview
