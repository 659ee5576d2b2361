import ChangeReview.Proofs.CommandLine
import ChangeReview.Proofs.World

/-!
# Three ways to supply a diff

A diff can be made by the version control, read from a file or read from
standard input. The same text gives the same run: the same verdict, the same
output and the same log, whether the text can be read as a diff or not
(`run_diffSource`).

What the version control writes is taken as it is, while the bytes of a file
and of standard input are decoded and line ends in them are made line feeds. So the
statement is about texts without carriage returns, and about any such text:
the bytes that write it give it back, whatever characters are in it
(`World.decodeText_encode`). From there on the run does not know where the
text comes from. The one command that it started to have it made is still in
its list of commands, in front of what the review starts
(`reviewChange_of_readDiff`).
-/

namespace ChangeReview

/-! ## Asking for a file -/

/-- A word that does not start with a dash is no flag. -/
theorem Word.ofText_of_head? {cs : List Char} (h : cs.head? ≠ some '-') :
    ofText cs = .stray (String.ofList cs) := by
  unfold ofText
  split
  · exact absurd rfl h
  · exact absurd rfl h
  · rfl

namespace Options

variable {before after : List String} {accepted options : Options}
  (hbefore : parse before = .ok accepted) (hargv : parse (before ++ after) = .ok options)
  (hnone : options.diffFile = none)
include hbefore hargv hnone

theorem parse_insert_stdin : parse (before ++ ["--diff-file", "-"] ++ after)
    = .ok { options with diffFile := some .stdin } :=
  parse_insert_diffFile hbefore hargv rfl (fun _ => rfl) hnone

theorem parse_insert_named {name : String} (hname : name.toList.head? ≠ some '-') :
    parse (before ++ ["--diff-file", name] ++ after)
      = .ok { options with diffFile := some (.named name) } := by
  have hword : Word.ofTexts ["--diff-file", name] = [.long .diffFile none, .stray name] := by
    have hdivider : name ≠ "--" := by
      rintro rfl
      exact hname rfl
    rw [Word.ofTexts, if_neg (by decide), Word.ofTexts, if_neg hdivider, Word.ofText_of_head? hname,
      String.ofList_toList]
    rfl
  have hne : name ≠ "-" := by
    rintro rfl
    exact hname rfl
  exact parse_insert_diffFile hbefore hargv hword (set_diffFile_of_ne hne) hnone

end Options

/-! ## Getting hold of a text -/

section

variable {w : World} {diff : String}

theorem readDiff_stdin (hplain : '\r' ∉ diff.toList)
    (hstdin : w.stdin = Text.Utf8.encode diff.toList) (commit : String) :
    readDiff w (some .stdin) commit = ⟨.ok diff, [], []⟩ := by
  show Outcome.ofExcept (w.readStdin.mapError .read) = _
  rw [World.readStdin, hstdin, World.decodeText_encode hplain]
  rfl

theorem readDiff_named {name : String} (hplain : '\r' ∉ diff.toList)
    (hfile : w.file? (.ofString name) = some (Text.Utf8.encode diff.toList)) (commit : String) :
    readDiff w (some (.named name)) commit = ⟨.ok diff, [], []⟩ := by
  show Outcome.ofExcept ((w.readText (.ofString name)).mapError .read) = _
  rw [World.readText_of_file? hfile, World.decodeText_encode hplain]
  rfl

theorem readDiff_made {stderr : String} (hgit : w.git = .exited diff stderr 0) (commit : String) :
    readDiff w none commit = ⟨.ok diff, [], [.diff commit]⟩ := by
  show makeDiff w.git commit = _
  rw [makeDiff_eq, hgit]
  rfl

end

/-! ## The same run -/

section

variable {w : World} {options : Options} {settings : Settings} {threshold : Nat}

/-- A run that gets hold of a diff reviews it. -/
theorem run_of_readDiff {argv : List String} {diff : String} {calls : List Command}
    (hargv : Options.parse argv = .ok options) (hsettings : Settings.read w = .ok settings)
    (hlevel : levelRanks.lookup (Text.upper settings.logLevel) = some threshold)
    (h : readDiff w options.diffFile (options.base settings) = ⟨.ok diff, [], calls⟩) :
    run w argv = { answerReview options threshold (reviewDiff w settings diff) with
      calls := calls ++ (reviewDiff w settings diff).calls } := by
  rw [run_eq hargv hsettings hlevel, reviewChange_of_readDiff h, answerReview_eq, answerReview_eq]
  rfl

end

section

variable {w : World} {before after : List String} {accepted options : Options}
  {name diff stderr : String}

/-- **Supplying the diff in another way changes nothing.** A run that reads it
from a file and one that reads it from standard input are the same. A run that
has it made differs from them in its commands: it starts the version control
first, once, unless it stops before it gets that far. They start it never. -/
theorem run_diffSource (hbefore : Options.parse before = .ok accepted)
    (hargv : Options.parse (before ++ after) = .ok options) (hnone : options.diffFile = none)
    (hname : name.toList.head? ≠ some '-') (hplain : '\r' ∉ diff.toList)
    (hfile : w.file? (.ofString name) = some (Text.Utf8.encode diff.toList))
    (hstdin : w.stdin = Text.Utf8.encode diff.toList) (hgit : w.git = .exited diff stderr 0) :
    run w (before ++ ["--diff-file", name] ++ after)
        = run w (before ++ ["--diff-file", "-"] ++ after) ∧
      ∃ made, run w (before ++ after)
          = { run w (before ++ ["--diff-file", "-"] ++ after) with
              calls := made ++ (run w (before ++ ["--diff-file", "-"] ++ after)).calls } ∧
        (∀ commit, .diff commit ∉ (run w (before ++ ["--diff-file", "-"] ++ after)).calls) ∧
        ((∃ cause, run w (before ++ after) = ⟨.aborted cause, "", [], []⟩) ∧ made = [] ∨
          ∃ settings, Settings.read w = .ok settings ∧
            ((∃ status, (run w (before ++ after)).ending = .finished status) ∨
              ∃ e, (run w (before ++ after)).ending = .aborted (.output e)) ∧
            made = [.diff (options.base settings)]) := by
  have hread := Options.parse_insert_stdin hbefore hargv hnone
  have hnamed := Options.parse_insert_named hbefore hargv hnone hname
  rcases aborts_or_reviews w with ⟨cause, haborts⟩ |
    ⟨settings, threshold, hsettings, hlevel⟩
  · rw [haborts _ _ hread, haborts _ _ hnamed, haborts _ _ hargv]
    exact ⟨rfl, [], rfl, fun commit h => List.not_mem_nil h, .inl ⟨⟨cause, rfl⟩, rfl⟩⟩
  · have hmade : readDiff w options.diffFile (options.base settings)
        = ⟨.ok diff, [], [.diff (options.base settings)]⟩ := hnone ▸ readDiff_made hgit _
    rw [run_of_readDiff hread hsettings hlevel (readDiff_stdin hplain hstdin _),
      run_of_readDiff hnamed hsettings hlevel (readDiff_named hplain hfile _),
      run_of_readDiff hargv hsettings hlevel hmade, answerReview_eq, answerReview_eq,
      answerReview_eq]
    refine ⟨rfl, [.diff (options.base settings)], rfl, fun commit h => ?_,
      .inr ⟨settings, hsettings, finished_or_aborted _ _ _, rfl⟩⟩
    cases eq_check_of_mem_reviewDiff h

end

/-- A machine on which the same diff can be had in three ways. Its text holds a
line separator and a character of four bytes, and its last line does not end. -/
def World.withDiff : World where
  cwd := .ofString "/r"
  entries := [(.ofString "/r/change.diff", .file (Text.Utf8.encode text.toList))]
  env := []
  stdin := Text.Utf8.encode text.toList
  git := .exited text "" 0
  checker := .missing
  room := 9
where
  /-- The text of the diff. -/
  text : String := "--- a/a.py\n+++ b/a.py\n@@ -0,0 +1 @@\n+x = '\u2028😀'"

/-- A diff of all kinds of characters is reviewed in the same way, wherever it
comes from. -/
theorem run_withDiff :
    run .withDiff ["--exit-code", "--diff-file", "change.diff", "-c", "v1"]
        = run .withDiff ["--exit-code", "--diff-file", "-", "-c", "v1"] ∧
      run .withDiff ["--exit-code", "-c", "v1"]
        = { run .withDiff ["--exit-code", "--diff-file", "-", "-c", "v1"] with
            calls := .diff "v1" ::
              (run .withDiff ["--exit-code", "--diff-file", "-", "-c", "v1"]).calls } := by
  have hbefore : Options.parse ["--exit-code"] = .ok ⟨none, none, .text, true⟩ := by decide +kernel
  have hargv : Options.parse (["--exit-code"] ++ ["-c", "v1"])
      = .ok ⟨some "v1", none, .text, true⟩ := by decide +kernel
  have hfile : World.withDiff.file? (.ofString "change.diff")
      = some (Text.Utf8.encode World.withDiff.text.toList) := by decide +kernel
  obtain ⟨hsame, made, hmade, -, ⟨⟨cause, haborted⟩, -⟩ | ⟨settings, -, -, rfl⟩⟩ :=
    run_diffSource hbefore hargv rfl (by decide) (by decide) hfile rfl rfl
  · have hending : (run .withDiff ["--exit-code", "-c", "v1"]).ending = .finished 2 := by
      decide +kernel
    cases (congrArg Answer.ending haborted).symm.trans hending
  · exact ⟨hsame, hmade⟩

end ChangeReview
