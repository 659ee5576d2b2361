import ChangeReview.Proofs.Text.Utf8
import ChangeReview.Proofs.Verdict

/-!
# What a run depends on

A run sees little of its world. It looks at two files for certain, `.env` and
the configuration file, and at a third one if the diff is read from there. So
two worlds can be told apart only by these, by what stands on standard input
and by what the child processes do, and this module says so step by step.

A file is written with `World.withFile`. What stands at any other place is
left as it was, with one thing to be careful about: a directory is inferred
from what lies below it, so a new file can make new directories. It makes none
where a file stood already (`World.entry?_withFile_of_ne`).
-/

namespace ChangeReview

open Outcome

/-! ## Files -/

namespace World

variable {w : World} {p q : Path} {bytes : List UInt8}

/-- The world in which a file holds these bytes. -/
def withFile (w : World) (p : Path) (bytes : List UInt8) : World :=
  { w with entries := w.entries ++ [(p, .file bytes)] }

theorem withFile_reverse (w : World) (p : Path) (bytes : List UInt8) :
    (w.withFile p bytes).entries.reverse = (p, .file bytes) :: w.entries.reverse :=
  List.reverse_append

theorem file?_eq_some_iff : w.file? p = some bytes ↔ w.entry? p = some (.file bytes) := by
  unfold file?
  split
  · next h => rw [h]; simp
  · next h => exact iff_of_false nofun (h bytes)

/-- Whatever stands at a place, a directory apart, is there only if it is said
to be: what is inferred is a directory. -/
theorem entry?_eq_some_iff {e : Entry} (h : e ≠ .directory) :
    w.entry? p = some e ↔ w.said? p = some e := by
  unfold entry?
  dsimp only
  cases w.said? p with
  | some e' => exact Iff.rfl
  | none =>
    refine iff_of_false (fun heq => ?_) nofun
    dsimp only at heq
    split at heq
    · exact h (Option.some.inj heq).symm
    · cases heq

/-- What is written is said to be there, -/
theorem said?_withFile (w : World) (p : Path) (bytes : List UInt8) :
    (w.withFile p bytes).said? p = some (.file bytes) := by
  unfold said?
  rw [withFile_reverse, List.find?_cons_of_pos (by exact decide_eq_true rfl)]
  rfl

/-- A file that is written is there. -/
theorem file?_withFile (w : World) (p : Path) (bytes : List UInt8) :
    (w.withFile p bytes).file? p = some bytes :=
  file?_eq_some_iff.mpr ((entry?_eq_some_iff (by rintro ⟨⟩)).mpr (said?_withFile w p bytes))

/-- The bytes of a text without carriage returns give the text. -/
theorem decodeText_encode {text : String} (h : '\r' ∉ text.toList) :
    decodeText (Text.Utf8.encode text.toList) = .ok text := by
  unfold decodeText
  rw [Text.Utf8.decode_encode]
  dsimp only
  rw [Text.unifyBreaks_eq_self h, String.ofList_toList]

theorem readText_of_file? (h : w.file? p = some bytes) : w.readText p = decodeText bytes := by
  unfold readText
  rw [file?_eq_some_iff.mp h]

end World

/-! ## Settings -/

variable {w : World} {argv : List String} {options : Options}

theorem run_of_unreadable {e : ReadError} (hargv : Options.parse argv = .ok options)
    (hsettings : Settings.read w = .error e) :
    run w argv = ⟨.aborted (.settings e), "", [], []⟩ := by
  unfold run
  rw [hargv]
  show runWith w options = _
  unfold runWith
  rw [hsettings]

theorem run_of_unknownLevel {settings : Settings} (hargv : Options.parse argv = .ok options)
    (hsettings : Settings.read w = .ok settings)
    (hlevel : levelRanks.lookup (Text.upper settings.logLevel) = none) :
    run w argv = ⟨.aborted (.unknownLevel (Text.upper settings.logLevel)), "", [], []⟩ := by
  unfold run
  rw [hargv]
  show runWith w options = _
  unfold runWith
  rw [hsettings]
  dsimp only
  rw [hlevel]

/-- **A run goes on to its review or not, as the settings have it**, whatever
the command line asks for. One that does not go on has done nothing. -/
theorem aborts_or_reviews (w : World) :
    (∃ cause, ∀ argv options, Options.parse argv = .ok options →
      run w argv = ⟨.aborted cause, "", [], []⟩) ∨
    ∃ settings threshold, Settings.read w = .ok settings ∧
      levelRanks.lookup (Text.upper settings.logLevel) = some threshold := by
  cases hsettings : Settings.read w with
  | error e => exact .inl ⟨_, fun argv options hargv => run_of_unreadable hargv hsettings⟩
  | ok settings =>
  cases hlevel : levelRanks.lookup (Text.upper settings.logLevel) with
  | none => exact .inl ⟨_, fun argv options hargv => run_of_unknownLevel hargv hsettings hlevel⟩
  | some threshold => exact .inr ⟨settings, threshold, rfl, hlevel⟩

/-! ## Answers -/

/-- The exit status that messages give: whether there are any, where this is
asked for. -/
def exitStatus (asked : Bool) (messages : List Message) : Nat :=
  if asked && !messages.isEmpty then 1 else 0

/-- How a run ends that has this result. -/
def endingOf (format : Format) (asked : Bool) : Except Failure (List Message) → Ending
  | .error _ => .finished 2
  | .ok messages => (showMessages format messages).error.elim
      (.finished (exitStatus asked messages)) fun e => .aborted (.output e)

/-- What is shown of a result. -/
def shownAs (format : Format) : Except Failure (List Message) → String
  | .error _ => ""
  | .ok messages => (showMessages format messages).stdout

/-- All that is said of a review, at any level. -/
def Outcome.log (o : Outcome (List Message)) : List Event :=
  match o.result with
  | .error cause => o.events ++ [.failed cause]
  | .ok _ => o.events

/-- **What each part of an answer depends on.** -/
theorem answerReview_eq (options : Options) (threshold : Nat) (o : Outcome (List Message)) :
    answerReview options threshold o =
      { ending := endingOf options.format options.exitCode o.result
        stdout := shownAs options.format o.result
        events := o.log.filter fun e => threshold ≤ e.level.rank
        calls := o.calls } := by
  unfold answerReview Outcome.log
  cases o.result with
  | error cause => rfl
  | ok messages => rfl

/-- A run with a result ends with an exit status, or breaks off at a message
that cannot be shown. -/
theorem finished_or_aborted (format : Format) (asked : Bool)
    (result : Except Failure (List Message)) :
    (∃ status, endingOf format asked result = .finished status) ∨
      ∃ e, endingOf format asked result = .aborted (.output e) := by
  cases result with
  | error cause => exact .inl ⟨2, rfl⟩
  | ok messages =>
    unfold endingOf
    dsimp only
    cases (showMessages format messages).error with
    | none => exact .inl ⟨_, rfl⟩
    | some e => exact .inr ⟨e, rfl⟩

/-! ## Reviews of a diff that is there -/

/-- What is done with a diff, wherever it comes from. -/
def reviewDiff (w : World) (settings : Settings) (diff : String) : Outcome (List Message) := do
  let files ← ofExcept ((ChangedFile.read diff (some w.cwd)).mapError .change)
  let excludes ← Config.load w (w.cwd / Path.ofString settings.configFile)
  review w.room ((files.map Patch.ofChangedFile).filter (·.isSelected w.cwd excludes)) defaultRunner
    w.checker

variable {settings : Settings} {diff : String}

theorem reviewChange_eq_bind (w : World) (options : Options) (settings : Settings) :
    reviewChange w options settings
      = readDiff w options.diffFile (options.base settings) >>= reviewDiff w settings := rfl

/-- **Where the diff comes from shows in the commands alone.** -/
theorem reviewChange_of_readDiff {calls : List Command}
    (h : readDiff w options.diffFile (options.base settings) = ⟨.ok diff, [], calls⟩) :
    reviewChange w options settings
      = { reviewDiff w settings diff with calls := calls ++ (reviewDiff w settings diff).calls } := by
  rw [reviewChange_eq_bind, h]
  rfl

/-- A configuration gives patterns, or it is hidden; it starts nothing. -/
theorem Config.exists_load_eq (w : World) (path : Path) :
    ∃ result events, load w path = ⟨result, events, []⟩ :=
  ⟨(load w path).result, (load w path).events, by rw [← (load_result w path).1]⟩

theorem reviewDiff_of_error {e : ChangeError} (h : ChangedFile.read diff (some w.cwd) = .error e)
    (settings : Settings) : reviewDiff w settings diff = Outcome.ofExcept (.error (.change e)) := by
  unfold reviewDiff
  rw [h]
  rfl

/-- What the configuration leaves in the log comes first. -/
theorem reviewDiff_of_ok {files : List ChangedFile} {excludes : List String} {events : List Event}
    (h : ChangedFile.read diff (some w.cwd) = .ok files)
    (hload : Config.load w (w.cwd / Path.ofString settings.configFile) = ⟨.ok excludes, events, []⟩)
    {o : Outcome (List Message)}
    (ho : review w.room ((files.map Patch.ofChangedFile).filter (·.isSelected w.cwd excludes))
      defaultRunner w.checker = o) :
    reviewDiff w settings diff = { o with events := events ++ o.events } := by
  subst ho
  unfold reviewDiff
  rw [h, hload]
  rfl

/-- Only the checker is started for a diff that is there. -/
theorem eq_check_of_mem_reviewDiff {c : Command} (h : c ∈ (reviewDiff w settings diff).calls) :
    c = .check := by
  cases hfiles : ChangedFile.read diff (some w.cwd) with
  | error e =>
    rw [reviewDiff_of_error hfiles] at h
    cases h
  | ok files =>
    obtain ⟨result, events, hload⟩ :=
      Config.exists_load_eq w (w.cwd / Path.ofString settings.configFile)
    cases result with
    | error cause =>
      unfold reviewDiff at h
      rw [hfiles, hload] at h
      cases h
    | ok excludes =>
      rw [reviewDiff_of_ok hfiles hload rfl, review_calls] at h
      split at h
      · cases h
      · exact List.mem_singleton.mp h

end ChangeReview
