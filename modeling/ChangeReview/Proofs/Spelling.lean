import ChangeReview.Proofs.DiffSources

/-!
# One command line in many spellings

What a command line asks for can be written in many ways. A long name can be
cut short, a value can stand behind an equals sign or in the next word, flags
can come in any order, and a flag can be given again and again. This module
shows that none of this matters (`run_canonical`): a command line is as good as
the one that gives each of its flags once, in full, with the value that was
given last.

A flag with its value is a `Mention`. It carries with it that it is spelled in
one of the ways that there are, so a command line is nothing but a list of
mentions (`Mention.written`). What a list of mentions asks for can be said
without reading any words, from the last mention of each flag alone
(`Mention.asked`), and this is what the reader of the command line finds
(`Mention.parse_written`). The rest is bookkeeping about last mentions.

The one value that needs care is a double dash. In a word of its own it would
make all that follows stray, and so it is left out there. Behind an equals sign
it is as good as no value, but it still replaces an earlier one.
-/

namespace ChangeReview

/-! ## Names -/

namespace Flag

/-- A long name, which can be cut short as long as a letter is left of it. -/
structure Name (f : Flag) where
  letters : List Char
  ne_nil : letters ≠ []
  isPrefix : letters <+: f.long

/-- The long name in full. -/
def Name.whole (f : Flag) : f.Name := ⟨f.long, by cases f <;> decide, List.prefix_rfl⟩

/-- No two long names start with the same letter. -/
theorem eq_of_head?_long {f g : Flag} (h : f.long.head? = g.long.head?) : f = g := by
  cases f <;> cases g <;> first | rfl | exact absurd h (by decide)

namespace Name

variable {f : Flag} (name : f.Name)

theorem isPrefixOf_long_iff (g : Flag) : name.letters.isPrefixOf g.long = true ↔ g = f := by
  rw [List.isPrefixOf_iff_prefix]
  constructor
  · intro h
    have head {g : Flag} (h : name.letters <+: g.long) : g.long.head? = name.letters.head? := by
      obtain ⟨cut, hcut⟩ := h
      rw [← hcut, List.head?_append_of_ne_nil _ name.ne_nil]
    exact eq_of_head?_long ((head h).trans (head name.isPrefix).symm)
  · rintro rfl
    exact name.isPrefix

/-- **A name means one flag**, however short it is cut. -/
theorem startingWith_letters : startingWith name.letters = [f] := by
  have hcongr : startingWith name.letters = all.filter (· = f) :=
    List.filter_congr fun g _ => by
      rw [Bool.eq_iff_iff, name.isPrefixOf_long_iff, decide_eq_true_iff]
  rw [hcongr]
  cases f <;> rfl

theorem ne_equals_of_mem {c : Char} (h : c ∈ name.letters) : (c != '=') = true := by
  have hlong : '=' ∉ f.long := by cases f <;> decide
  exact bne_iff_ne.mpr fun heq => hlong (heq ▸ name.isPrefix.subset h)

end Name

/-- A value that a flag can be given, as far as mentions go. -/
structure Accepts (f : Flag) (value : String) : Prop where
  takesValue : f.takesValue = true
  format : f = .format → value = "text" ∨ value = "json"

end Flag

/-- A name that is written, with nothing behind it or with a value. -/
theorem Word.ofText_name {f : Flag} (name : f.Name) :
    ofText ('-' :: '-' :: name.letters) = .long f none ∧
      ∀ value, ofText ('-' :: '-' :: (name.letters ++ '=' :: value)) = .long f (some value) := by
  have hname : ∀ c ∈ name.letters, (c != '=') = true := fun c => name.ne_equals_of_mem
  constructor
  · rw [ofText, List.takeWhile_eq_self_iff.mpr hname, List.dropWhile_eq_nil_iff.mpr hname,
      name.startingWith_letters]
  · intro value
    rw [ofText, List.takeWhile_append_of_pos hname, List.dropWhile_append_of_pos hname,
      List.takeWhile_cons_of_neg (by decide), List.dropWhile_cons_of_neg (by decide),
      List.append_nil, name.startingWith_letters]

/-! ## Mentions -/

/-- A value that can stand in a word of its own. -/
def IsSeparate (value : String) : Prop := value = "-" ∨ value.toList.head? ≠ some '-'

/-- **A flag as it is given once**: the flag that needs no value, or one of the
others with its value. -/
inductive Mention where
  | exitCode (name : Flag.exitCode.Name)
  /-- The letter of a flag, and its value in the next word. -/
  | letter (f : Flag) (c : Char) (value : String) (hc : f.letter? = some c)
      (hvalue : f.Accepts value) (hseparate : IsSeparate value)
  /-- The long name of a flag, and its value in the next word. -/
  | separate (f : Flag) (name : f.Name) (value : String) (hvalue : f.Accepts value)
      (hseparate : IsSeparate value)
  /-- The long name of a flag, and its value behind an equals sign. -/
  | joined (f : Flag) (name : f.Name) (value : String) (hvalue : f.Accepts value)

namespace Mention

/-- The flag that is given. -/
def flag : Mention → Flag
  | exitCode _ => .exitCode
  | letter f .. | separate f .. | joined f .. => f

/-- The value that it is given, if it needs one. -/
def value? : Mention → Option String
  | exitCode _ => none
  | letter _ _ value .. | separate _ _ value .. | joined _ _ value _ => some value

/-- The words of a mention. -/
def words : Mention → List String
  | exitCode name => [String.ofList ('-' :: '-' :: name.letters)]
  | letter _ c value .. => [String.ofList ['-', c], value]
  | separate _ name value .. => [String.ofList ('-' :: '-' :: name.letters), value]
  | joined _ name value _ => [String.ofList ('-' :: '-' :: (name.letters ++ '=' :: value.toList))]

/-- The command line that is made of mentions. -/
def written (ms : List Mention) : List String := ms.flatMap words

/-- The last mention of a flag. -/
def last? (ms : List Mention) (f : Flag) : Option Mention := (ms.filter (·.flag = f)).getLast?

/-- The value that a flag is given last; a flag that is given without a value
has none. -/
def lastValue? (ms : List Mention) (f : Flag) : Option (Option String) :=
  (last? ms f).map value?

/-- The same mention with the name in full, and its value behind an equals
sign. -/
def full : Mention → Mention
  | exitCode _ => .exitCode (.whole _)
  | letter f _ value _ hvalue _ | separate f _ value hvalue _ | joined f _ value hvalue =>
    .joined f (.whole f) value hvalue

/-- The last mentions, in a fixed order of the flags. -/
def lasts (ms : List Mention) : List Mention :=
  [.commit, .diffFile, .format, .exitCode].filterMap fun f => (last? ms f).map full

/-- **The plain form of a command line**: each flag that is given is given
once, in full, as it was given last. -/
def canonical (ms : List Mention) : List String := written (lasts ms)

/-- What is read of a value: a double dash is none. -/
def readable (value : String) : Option String := if value = "--" then none else some value

/-- The value that is read for a mention. -/
def read? (m : Mention) : Option String := m.value?.bind readable

variable {ms : List Mention} {m : Mention} {f g : Flag}

/-- A mention gives no value and asks for the exit status, or it gives a value
that the flag accepts. -/
theorem cases_value (m : Mention) : (m.flag = .exitCode ∧ m.value? = none) ∨
    ∃ value, m.value? = some value ∧ m.flag.Accepts value := by
  cases m with
  | exitCode name => exact .inl ⟨rfl, rfl⟩
  | letter f c value hc hvalue => exact .inr ⟨value, rfl, hvalue⟩
  | separate f name value hvalue => exact .inr ⟨value, rfl, hvalue⟩
  | joined f name value hvalue => exact .inr ⟨value, rfl, hvalue⟩

theorem flag_full (m : Mention) : m.full.flag = m.flag := by cases m <;> rfl

theorem value?_full (m : Mention) : m.full.value? = m.value? := by cases m <;> rfl

/-! ### Words -/

/-- A word that starts with two dashes and goes on is not the double dash. -/
theorem ofList_name_ne {cs : List Char} (h : cs ≠ []) :
    String.ofList ('-' :: '-' :: cs) ≠ "--" := by
  intro heq
  have hlist := congrArg String.toList heq
  rw [String.toList_ofList] at hlist
  injection hlist with _ hlist
  injection hlist with _ hlist
  exact h hlist

theorem ne_divider_of_isSeparate {value : String} (h : IsSeparate value) : value ≠ "--" := by
  rintro rfl
  rcases h with h | h
  · exact absurd h (by decide)
  · exact h rfl

theorem ofText_of_isSeparate {value : String} (h : IsSeparate value) :
    Word.ofText value.toList = .stray value := by
  rcases h with rfl | h
  · rfl
  · rw [Word.ofText_of_head? h, String.ofList_toList]

theorem ofTexts_separate {s value : String} (hs : s ≠ "--") (h : IsSeparate value) :
    Word.ofTexts [s, value] = [Word.ofText s.toList, .stray value] := by
  rw [Word.ofTexts, if_neg hs, Word.ofTexts, if_neg (ne_divider_of_isSeparate h),
    ofText_of_isSeparate h]
  rfl

theorem ofTexts_single {s : String} (hs : s ≠ "--") : Word.ofTexts [s] = [Word.ofText s.toList] := by
  rw [Word.ofTexts, if_neg hs]
  rfl

/-- The letter of a flag is read as that flag. -/
theorem ofText_letter {c : Char} (hc : f.letter? = some c) :
    Word.ofText ['-', c] = .short f none := by
  cases f <;> cases hc <;> rfl

/-- A value in a word of its own is read as it is. -/
theorem readable_of_isSeparate {value : String} (h : IsSeparate value) :
    readable value = some value :=
  if_neg (ne_divider_of_isSeparate h)

/-- **The words of a mention are read as its flag and its value.** -/
theorem gives_words (m : Mention) : Word.Gives (Word.ofTexts m.words) m.flag m.read? := by
  cases m with
  | exitCode name =>
    show Word.Gives (Word.ofTexts [_]) _ none
    rw [ofTexts_single (ofList_name_ne name.ne_nil), String.toList_ofList,
      (Word.ofText_name name).1]
    exact .bare (.inl rfl) rfl
  | letter f c value hc hvalue hseparate =>
    have hdash : String.ofList ['-', c] ≠ "--" := by
      cases f <;> cases hc <;> decide
    show Word.Gives (Word.ofTexts [_, _]) _ (readable value)
    rw [ofTexts_separate hdash hseparate, String.toList_ofList, ofText_letter hc,
      readable_of_isSeparate hseparate]
    exact .separate (.inr rfl) hvalue.takesValue
  | separate f name value hvalue hseparate =>
    show Word.Gives (Word.ofTexts [_, _]) _ (readable value)
    rw [ofTexts_separate (ofList_name_ne name.ne_nil) hseparate, String.toList_ofList,
      (Word.ofText_name name).1, readable_of_isSeparate hseparate]
    exact .separate (.inl rfl) hvalue.takesValue
  | joined f name value hvalue =>
    have hread : readable value
        = if value.toList = ['-', '-'] then none else some (String.ofList value.toList) := by
      have hiff : value.toList = ['-', '-'] ↔ value = "--" :=
        ⟨fun h => String.toList_injective h, fun h => h ▸ rfl⟩
      unfold readable
      rw [String.ofList_toList]
      simp only [hiff]
    show Word.Gives (Word.ofTexts [_]) _ (readable value)
    rw [ofTexts_single (ofList_name_ne (by simp)), String.toList_ofList,
      (Word.ofText_name name).2, hread]
    exact .attached (.inl rfl) hvalue.takesValue

/-! ### Last mentions -/

/-- The last mention of a flag is the new one, if it is of that flag. -/
theorem last?_concat (ms : List Mention) (m : Mention) (f : Flag) :
    last? (ms ++ [m]) f = if m.flag = f then some m else last? ms f := by
  unfold last?
  rw [List.filter_append]
  by_cases h : m.flag = f
  · rw [if_pos h, List.filter_cons_of_pos (by exact decide_eq_true h), List.filter_nil,
      List.getLast?_concat]
  · rw [if_neg h, List.filter_cons_of_neg (by simpa using h), List.filter_nil, List.append_nil]

theorem lastValue?_concat (ms : List Mention) (m : Mention) (f : Flag) :
    lastValue? (ms ++ [m]) f = if m.flag = f then some m.value? else lastValue? ms f := by
  unfold lastValue?
  rw [last?_concat, apply_ite (Option.map value?)]
  rfl

theorem flag_of_last? (h : last? ms f = some m) : m.flag = f :=
  of_decide_eq_true (List.mem_filter.mp (List.mem_of_getLast? h)).2

theorem flag_ne_help (m : Mention) : m.flag ≠ .help := by
  rcases m.cases_value with ⟨hflag, -⟩ | ⟨value, -, haccepts⟩
  · rw [hflag]
    decide
  · intro hflag
    have htakes := haccepts.takesValue
    rw [hflag] at htakes
    cases htakes

/-- Nobody mentions the flag that asks for help. -/
theorem last?_help (ms : List Mention) : last? ms .help = none := by
  cases h : last? ms .help with
  | none => rfl
  | some m => exact absurd (flag_of_last? h) m.flag_ne_help

/-- The plain form has one mention of a flag that is given, and none of
another. -/
theorem filter_lasts (ms : List Mention) (f : Flag) :
    (lasts ms).filter (·.flag = f) = ((last? ms f).map full).toList := by
  have hflag {g : Flag} {m : Mention} (h : m ∈ ((last? ms g).map full).toList) : m.flag = g := by
    obtain ⟨m', hm', rfl⟩ := Option.map_eq_some_iff.mp (Option.mem_toList.mp h)
    rw [flag_full, flag_of_last? hm']
  have hone (g : Flag) : ((last? ms g).map full).toList.filter (·.flag = f)
      = if g = f then ((last? ms f).map full).toList else [] := by
    split
    · next h =>
      subst h
      exact List.filter_eq_self.mpr fun m hm => decide_eq_true (hflag hm)
    · next h =>
      exact List.filter_eq_nil_iff.mpr fun m hm => by simpa [hflag hm] using h
  unfold lasts
  rw [List.filterMap_eq_flatMap_toList, List.filter_flatMap]
  simp only [hone]
  cases f with
  | help =>
    rw [last?_help]
    rfl
  | _ => exact List.append_nil _

/-- **The plain form gives the same values last.** -/
theorem lastValue?_lasts (ms : List Mention) : lastValue? (lasts ms) = lastValue? ms := by
  funext f
  unfold lastValue? last?
  rw [filter_lasts]
  unfold last?
  cases (ms.filter (·.flag = f)).getLast? with
  | none => rfl
  | some m => exact congrArg some (value?_full m)

/-! ## What mentions ask for -/

/-- Where the diff comes from when this is said of it. -/
def source (name : String) : DiffFile :=
  if name = "--" then .unnamed else if name = "-" then .stdin else .named name

/-- **What a list of mentions asks for**, said without its words: all that
counts of a flag is the value that it is given last. -/
def asked (ms : List Mention) : Options where
  commit := (lastValue? ms .commit).join.bind readable
  diffFile := (lastValue? ms .diffFile).join.map source
  format := if (lastValue? ms .format).join = some "json" then .json else .text
  exitCode := (lastValue? ms .exitCode).isSome

theorem set_diffFile (o : Options) (name : String) :
    o.set .diffFile (readable name) = .ok { o with diffFile := some (source name) } := by
  unfold readable source
  by_cases hdivider : name = "--"
  · rw [if_pos hdivider, if_pos hdivider]
    rfl
  · rw [if_neg hdivider, if_neg hdivider]
    by_cases hdash : name = "-"
    · subst hdash
      rfl
    · rw [Options.set_diffFile_of_ne hdash, if_neg hdash]

/-- One more mention sets the field of its flag. -/
theorem set_asked (ms : List Mention) (m : Mention) :
    (asked ms).set m.flag m.read? = .ok (asked (ms ++ [m])) := by
  unfold asked read?
  simp only [lastValue?_concat]
  rcases m.cases_value with ⟨hflag, hvalue⟩ | ⟨value, hvalue, haccepts⟩
  · rw [hflag, hvalue]
    rfl
  · rw [hvalue]
    have htakes := haccepts.takesValue
    have hformat := haccepts.format
    generalize m.flag = f at htakes hformat
    cases f with
    | help => cases htakes
    | exitCode => cases htakes
    | commit => rfl
    | diffFile => exact set_diffFile _ value
    | format =>
      rcases hformat rfl with rfl | rfl
      · rfl
      · rfl

/-- **What is read of mentions is what they ask for.** -/
theorem parse_written (ms : List Mention) : Options.parse (written ms) = .ok (asked ms) := by
  induction ms using List.reverseRecOn with
  | nil => rfl
  | append_singleton ms m ih =>
    have hwritten : written (ms ++ [m]) = written ms ++ m.words := by
      unfold written
      rw [List.flatMap_append, List.flatMap_singleton]
    rw [hwritten]
    exact Options.parse_append_of_gives ih m.gives_words (set_asked ms m)

/-- Only what is given last counts. -/
theorem parse_written_congr {ms' : List Mention} (h : lastValue? ms' = lastValue? ms) :
    Options.parse (written ms') = Options.parse (written ms) := by
  rw [parse_written, parse_written]
  unfold asked
  rw [h]

/-! ### The default commit -/

/-- The mention of a commit. -/
def ofCommit (commit : String) : Mention := .joined .commit (.whole _) commit ⟨rfl, nofun⟩

/-- Without the mentions of a flag its last value is gone, and no other. -/
theorem lastValue?_filter_ne (ms : List Mention) (f g : Flag) :
    lastValue? (ms.filter (·.flag ≠ f)) g = if g = f then none else lastValue? ms g := by
  unfold lastValue? last?
  rw [List.filter_filter]
  split
  · next h =>
    have hnone : ms.filter (fun m => decide (m.flag = g) && decide (m.flag ≠ f)) = [] :=
      List.filter_eq_nil_iff.mpr fun m _ => by simp [h]
    rw [hnone]
    rfl
  · next h =>
    have hsame : ms.filter (fun m => decide (m.flag = g) && decide (m.flag ≠ f))
        = ms.filter (·.flag = g) :=
      List.filter_congr fun m _ => by
        by_cases hg : m.flag = g
        · simp [hg, h]
        · simp [hg]
    rw [hsame]

theorem asked_filter_ne_commit (ms : List Mention) :
    asked (ms.filter (·.flag ≠ .commit)) = { asked ms with commit := none } := by
  unfold asked
  simp only [lastValue?_filter_ne]
  rfl

theorem asked_concat_ofCommit (ms : List Mention) (commit : String) :
    asked (ms ++ [ofCommit commit]) = { asked ms with commit := readable commit } := by
  unfold asked
  simp only [lastValue?_concat]
  rfl

/-- The default commit is taken also where it is asked for. -/
theorem base_readable (o : Options) (settings : Settings) :
    { o with commit := readable settings.defaultCommit }.base settings
      = settings.defaultCommit := by
  unfold Options.base
  dsimp only
  split
  · rfl
  · rfl
  · next commit _ hcommit =>
    unfold readable at hcommit
    split at hcommit
    · cases hcommit
    · exact (Option.some.inj hcommit).symm

end Mention

/-- Command lines that ask for the same but for the commit give the same answer,
if they come to the same commit. -/
theorem run_eq_of_base {w : World} {argv argv' : List String} {options : Options}
    {commit : Option String} (hargv : Options.parse argv = .ok options)
    (hargv' : Options.parse argv' = .ok { options with commit })
    (hbase : ∀ settings, Settings.read w = .ok settings →
      { options with commit }.base settings = options.base settings) :
    run w argv' = run w argv := by
  rcases aborts_or_reviews w with ⟨cause, haborts⟩ | ⟨settings, threshold, hsettings, hlevel⟩
  · rw [haborts _ _ hargv, haborts _ _ hargv']
  · rw [run_eq hargv hsettings hlevel, run_eq hargv' hsettings hlevel, reviewChange_eq_bind,
      reviewChange_eq_bind, hbase settings hsettings]
    rfl

/-! ## Spellings -/

open Mention

/-- **A command line means the same in every order and spelling.** One that is
made of mentions is accepted, and the run gives the answer that it gives to the
plain form. Mentions of different flags can change places: all that counts is
the order among the mentions of each flag. If the commit is given last as an
empty text, the earlier ones might as well not be given, and it is the default
commit that is meant. -/
theorem run_canonical (w : World) (ms : List Mention) :
    (∃ options, Options.parse (written ms) = .ok options) ∧
    run w (written ms) = run w (canonical ms) ∧
    (∀ ms', (∀ f, ms'.filter (·.flag = f) = ms.filter (·.flag = f)) →
      run w (written ms') = run w (written ms)) ∧
    ∀ m, last? ms .commit = some m → m.value? = some "" →
      run w (written (ms.filter (·.flag ≠ .commit))) = run w (written ms) ∧
      ∀ settings, Settings.read w = .ok settings →
        run w (written (ms ++ [ofCommit settings.defaultCommit])) = run w (written ms) := by
  have hcongr {ms' : List Mention} (h : lastValue? ms' = lastValue? ms) :
      run w (written ms') = run w (written ms) := by
    unfold run
    rw [parse_written_congr h]
  refine ⟨⟨_, parse_written ms⟩, (hcongr (lastValue?_lasts ms)).symm, fun ms' h => hcongr ?_,
    fun m hlast hvalue => ?_⟩
  · unfold lastValue? last?
    funext f
    rw [h f]
  · have hcommit : (asked ms).commit = some "" := by
      show (((last? ms .commit).map value?).join).bind readable = some ""
      rw [hlast, Option.map_some, Option.join_some, hvalue]
      rfl
    have hbase (settings : Settings) : (asked ms).base settings = settings.defaultCommit := by
      unfold Options.base
      rw [hcommit]
      rfl
    constructor
    · have hnone := parse_written (ms.filter (·.flag ≠ .commit))
      rw [asked_filter_ne_commit] at hnone
      exact run_eq_of_base (parse_written ms) hnone fun settings _ => (hbase settings).symm
    · intro settings hsettings
      have hdefault := parse_written (ms ++ [ofCommit settings.defaultCommit])
      rw [asked_concat_ofCommit] at hdefault
      refine run_eq_of_base (parse_written ms) hdefault fun settings' hsettings' => ?_
      obtain rfl := Except.ok.inj (hsettings.symm.trans hsettings')
      rw [base_readable, hbase]

/-- Two commits and two formats, of which the first ones do not count. -/
def Mention.twice : List Mention :=
  [.letter .commit 'c' "v1" rfl ⟨rfl, nofun⟩ (.inr (by decide)),
    .separate .diffFile ⟨['d'], by decide, by decide⟩ "-" ⟨rfl, nofun⟩ (.inl rfl),
    .exitCode ⟨['e', 'x', 'i', 't'], by decide, by decide⟩,
    .joined .format ⟨['f', 'o', 'r', 'm'], by decide, by decide⟩ "text" ⟨rfl, fun _ => .inl rfl⟩,
    .joined .commit ⟨['c', 'o', 'm'], by decide, by decide⟩ "" ⟨rfl, nofun⟩,
    .letter .format 'f' "json" rfl ⟨rfl, fun _ => .inr rfl⟩ (.inr (by decide))]

/-- The empty commit stands for the default one, and not for the one that was
given first. -/
theorem run_twice :
    run .withDiff ["-c", "v1", "--d", "-", "--exit", "--form=text", "--com=", "-f", "json"]
      = run .withDiff ["--commit=", "--diff-file=-", "--format=json", "--exit-code"] ∧
    run .withDiff ["--d", "-", "--exit", "--form=text", "-f", "json"]
      = run .withDiff ["-c", "v1", "--d", "-", "--exit", "--form=text", "--com=", "-f", "json"] := by
  have hwritten : written twice
      = ["-c", "v1", "--d", "-", "--exit", "--form=text", "--com=", "-f", "json"] := by
    decide +kernel
  have hcanonical : canonical twice
      = ["--commit=", "--diff-file=-", "--format=json", "--exit-code"] := by
    decide +kernel
  have hwithout : written (twice.filter (·.flag ≠ .commit))
      = ["--d", "-", "--exit", "--form=text", "-f", "json"] := by
    decide +kernel
  rw [← hwritten, ← hcanonical, ← hwithout]
  obtain ⟨-, hrun, -, hdefault⟩ := run_canonical .withDiff twice
  exact ⟨hrun, (hdefault _ rfl rfl).1⟩

end ChangeReview
