import ChangeReview.Program
import ChangeReview.Proofs.Json.Writing
import ChangeReview.Proofs.Report

/-!
# Both outputs are the same review

The messages of a review are shown to programs as JSON and to people as lines
of text. Neither output adds to the other: the JSON is ASCII and is read back
as the array of the objects of the messages, and whoever reads the messages
off these objects, key by key (`Message.ofJson?`), can make the lines of text
from them. So nothing of a message is lost on the way, whatever characters its
texts are made of.

There are messages that cannot be shown (`Message.IsShowable`). In neither
output can the number of a line be written that has too many digits
(`Text.isLong`). A review may well end up with such a message, since only the
numbers that a diff writes are bounded and not those that are counted from
them. As text, a half of a surrogate pair that stands alone cannot be written
either. At the first message that cannot be shown a run breaks off: as JSON
nothing is shown, and as text the messages in front of it.

That the JSON is read back is no more than `Json.IsExact.document_render`,
since the object of a message holds texts, an integer and nulls.
-/

namespace ChangeReview

/-! ## Texts -/

namespace WideString

/-- A text of characters alone. -/
def IsPlain (s : WideString) : Prop := ∀ p ∈ s.points, p.isHalf = false

/-- Texts put together. -/
def join (ss : List WideString) : WideString := ⟨ss.flatMap points⟩

theorem isPlain_ofString (s : String) : (ofString s).IsPlain := by
  intro p hp
  obtain ⟨c, -, rfl⟩ := List.mem_map.mp hp
  rfl

theorem ofString_append (s t : String) : ofString (s ++ t) = ofString s ++ ofString t := by
  show (⟨(s ++ t).toList.map .char⟩ : WideString) = ⟨s.toList.map .char ++ t.toList.map .char⟩
  rw [String.toList_append, List.map_append]

/-- Texts put together are of characters alone if each of them is. -/
theorem isPlain_append_iff {s t : WideString} : (s ++ t).IsPlain ↔ s.IsPlain ∧ t.IsPlain :=
  List.forall_mem_append

/-- The characters of a text are read off its points, unless there is a half
among them. -/
theorem charsFrom_eq_ok_iff {position : Nat} {ps : List Text.Point} {cs : List Char} :
    charsFrom position ps = .ok cs ↔ ps = cs.map .char := by
  induction ps generalizing position cs with
  | nil => cases cs <;> simp [charsFrom]
  | cons p ps ih =>
    cases p with
    | half h => cases cs <;> simp [charsFrom]
    | char c =>
      rw [charsFrom]
      cases hrest : charsFrom (position + 1) ps with
      | error e =>
        refine iff_of_false (fun h => by cases h) fun h => ?_
        cases cs with
        | nil => cases h
        | cons d ds => cases hrest.symm.trans (ih.mpr (List.cons.inj h).2)
      | ok ds =>
        rw [ih.mp hrest]
        show Except.ok (c :: ds) = .ok cs ↔ Text.Point.char c :: ds.map .char = cs.map .char
        rw [← List.map_cons, List.map_inj_right (fun _ _ => Text.Point.char.inj), Except.ok.injEq]

/-- **A text can be written exactly if it is of characters alone**, and it is
written with these. -/
theorem text_eq_ok_iff {s : WideString} {t : String} : s.text = .ok t ↔ s = ofString t := by
  unfold text
  obtain ⟨ps⟩ := s
  have hiff := @charsFrom_eq_ok_iff 0 ps t.toList
  show _ ↔ (⟨ps⟩ : WideString) = ⟨t.toList.map .char⟩
  rw [WideString.mk.injEq, ← hiff]
  cases charsFrom 0 ps with
  | error e => exact iff_of_false nofun nofun
  | ok cs =>
    show Except.ok (String.ofList cs) = .ok t ↔ _
    rw [Except.ok.injEq, Except.ok.injEq]
    exact ⟨fun h => by rw [← h, String.toList_ofList], fun h => by rw [h, String.ofList_toList]⟩

theorem isPlain_iff {s : WideString} : s.IsPlain ↔ ∃ t, s = ofString t := by
  refine ⟨fun h => ?_, ?_⟩
  · obtain ⟨ps⟩ := s
    have hchars : ∃ cs : List Char, ps = cs.map .char := by
      induction ps with
      | nil => exact ⟨[], rfl⟩
      | cons p ps ih =>
        obtain ⟨hp, hrest⟩ := List.forall_mem_cons.mp h
        obtain ⟨cs, rfl⟩ := ih hrest
        cases p with
        | char c => exact ⟨c :: cs, rfl⟩
        | half h => cases hp
    obtain ⟨cs, rfl⟩ := hchars
    exact ⟨String.ofList cs, by rw [ofString, String.toList_ofList]⟩
  · rintro ⟨t, rfl⟩
    exact isPlain_ofString t

end WideString

/-! ## Messages and their objects -/

/-- The text that a value is, or none where it is null. -/
def Json.text? : Json → Option (Option WideString)
  | .null => some none
  | .str s => some (some s)
  | _ => none

namespace Message

/-- The message that an object says, read key by key. -/
def ofJson? (v : Json) : Option Message := do
  let path ← ((v.field? "path").bind Json.str?).bind (·.text.toOption)
  let line ← (v.field? "line").bind Json.int?
  let level ← (v.field? "level").bind Json.text?
  let text ← (v.field? "msg").bind Json.text?
  let runner ← ((v.field? "runner").bind Json.str?).bind (·.text.toOption)
  return ⟨path, line, level, text, runner⟩

/-- The messages that an array says. -/
def listOfJson? : Json → Option (List Message)
  | .arr vs => vs.mapM ofJson?
  | _ => none

/-- A message is read off its object. -/
theorem ofJson?_toJson (m : Message) : ofJson? m.toJson = some m := by
  have hpath : m.toJson.field? "path" = some (.str m.path) := rfl
  have hline : m.toJson.field? "line" = some (.int m.line) := rfl
  have hlevel : m.toJson.field? "level" = some (m.level.elim .null .str) := rfl
  have hmsg : m.toJson.field? "msg" = some (m.text.elim .null .str) := rfl
  have hrunner : m.toJson.field? "runner" = some (.str m.runner) := rfl
  have htext (s : Option WideString) : (s.elim Json.null Json.str).text? = some s := by
    cases s <;> rfl
  unfold ofJson?
  rw [hpath, hline, hlevel, hmsg, hrunner]
  simp [Json.str?, Json.int?, htext, Except.toOption]

/-- So are any number of messages off their array. -/
theorem listOfJson?_toJson (ms : List Message) :
    listOfJson? (.arr (ms.map toJson)) = some ms := by
  show (ms.map toJson).mapM ofJson? = some ms
  induction ms with
  | nil => rfl
  | cons m ms ih =>
    rw [List.map_cons, List.mapM_cons, ofJson?_toJson, ih]
    rfl

/-- The texts of a message are of characters alone. -/
structure IsPlain (m : Message) : Prop where
  level : ∀ s ∈ m.level, s.IsPlain
  text : ∀ s ∈ m.text, s.IsPlain

theorem IsPlain.isExact_toJson {m : Message} (h : m.IsPlain) : m.toJson.IsExact := by
  have htext (s : Option WideString) (hs : ∀ t ∈ s, t.IsPlain) :
      (s.elim Json.null Json.str).IsExact := by
    cases s with
    | none => exact .null
    | some s =>
      obtain ⟨t, rfl⟩ := WideString.isPlain_iff.mp (hs s rfl)
      exact .str t
  refine @Json.IsExact.obj [("path", .str m.path), ("line", .int m.line),
    ("level", m.level.elim .null .str), ("msg", m.text.elim .null .str), ("commit_sha", .null),
    ("runner", .str m.runner)] ?_
  simp only [List.forall_mem_cons]
  exact ⟨.str _, .int _, htext _ h.level, htext _ h.text, .null, .str _, nofun⟩

/-- The only limit that a message can be beyond is that of its line. -/
theorem excess?_toJson {m : Message} (h : Text.isLong m.line = false) (room : Nat) :
    m.toJson.excess? (room + 1) = none := by
  have htext (s : Option WideString) : (s.elim Json.null Json.str).excess? room = none := by
    cases s <;> rfl
  show Json.membersExcess? room _ = none
  simp [Json.membersExcess?, Json.excess?, Json.limit?, h, htext]

theorem itemsExcess?_toJson {ms : List Message} (h : ∀ m ∈ ms, Text.isLong m.line = false)
    (room : Nat) : Json.itemsExcess? (room + 1) (ms.map toJson) = none := by
  induction ms with
  | nil => rfl
  | cons m ms ih =>
    rw [List.map_cons, Json.itemsExcess?, excess?_toJson (h m (.head _)),
      ih fun n hn => h n (.tail _ hn)]
    rfl

/-! ### Lines of text -/

/-- A message as a line of text, written out. -/
def formatted (m : Message) : WideString :=
  m.path ++ ":" ++ toString m.line ++ ": " ++
    (m.level.filter (· ≠ .ofString "")).getD "unknown" ++ ": " ++ m.text.getD ""

/-- The level as it is shown: unknown if there is none, or an empty one. -/
theorem shownLevel_eq (m : Message) :
    m.shownLevel = (m.level.filter (· ≠ .ofString "")).getD "unknown" := by
  unfold shownLevel
  cases m.level with
  | none => rfl
  | some level => by_cases h : level = .ofString "" <;> simp [Option.filter, h]

/-- A message is shown as it is written out, unless its line is too long. -/
theorem render_eq (m : Message) :
    m.render = if Text.isLong m.line then none else some m.formatted := by
  unfold render Text.decimal? formatted
  rw [shownLevel_eq, ← Text.ofList_decimal]
  split <;> rfl

/-- A line of text is of characters alone if the texts of its message are. -/
theorem isPlain_formatted_iff {m : Message} : m.formatted.IsPlain ↔ m.IsPlain := by
  have hlevel : ((m.level.filter (· ≠ .ofString "")).getD (.ofString "unknown")).IsPlain
      ↔ ∀ s ∈ m.level, s.IsPlain := by
    cases m.level with
    | none => exact iff_of_true (WideString.isPlain_ofString _) nofun
    | some level =>
      by_cases hempty : level = .ofString ""
      · subst hempty
        refine iff_of_true (WideString.isPlain_ofString _) fun s hs => ?_
        exact Option.some.inj hs ▸ WideString.isPlain_ofString _
      · simp [Option.filter, hempty]
  have htext : (m.text.getD (.ofString "")).IsPlain ↔ ∀ s ∈ m.text, s.IsPlain := by
    cases m.text with
    | none => exact iff_of_true (WideString.isPlain_ofString _) nofun
    | some text => simp
  unfold formatted
  simp only [WideString.isPlain_append_iff, hlevel, htext, WideString.isPlain_ofString, true_and,
    and_true]
  exact ⟨fun h => ⟨h.1, h.2⟩, fun h => ⟨h.level, h.text⟩⟩

/-- **Which messages can be shown**: those whose line is not too long, and as
text those alone whose texts are of characters. -/
def IsShowable (format : Format) (m : Message) : Prop :=
  Text.isLong m.line = false ∧ (format = .text → m.IsPlain)

/-- A message that can be shown is printed as it is written out, -/
theorem IsShowable.exists_printed {m : Message} (h : m.IsShowable .text) :
    ∃ line, m.printed = .ok line ∧ .ofString line = m.formatted ++ .ofString "\n" := by
  obtain ⟨t, ht⟩ := WideString.isPlain_iff.mp (isPlain_formatted_iff.mpr (h.2 rfl))
  refine ⟨t ++ "\n", ?_, by rw [WideString.ofString_append, ht]⟩
  rw [printed, render_eq, if_neg (by simp [h.1])]
  dsimp only
  rw [WideString.text_eq_ok_iff.mpr ht]
  rfl

/-- and any other is not printed. -/
theorem exists_printed_eq_error {m : Message} (h : ¬ m.IsShowable .text) :
    ∃ e, m.printed = .error e := by
  rw [printed, render_eq]
  split
  · exact ⟨_, rfl⟩
  · next line hline =>
    split at hline
    · cases hline
    · next hshort =>
      cases hline
      cases ht : m.formatted.text with
      | error e => exact ⟨_, rfl⟩
      | ok t =>
        have hplain := WideString.isPlain_iff.mpr ⟨t, WideString.text_eq_ok_iff.mp ht⟩
        exact absurd ⟨by simpa using hshort, fun _ => isPlain_formatted_iff.mp hplain⟩ h

theorem printed_of_long {m : Message} (h : Text.isLong m.line = true) :
    m.printed = .error .longNumber := by
  rw [printed, render_eq, if_pos h]

end Message

/-! ## What is shown -/

variable {messages before after : List Message} {m : Message}

/-- Messages that can be printed are printed one after the other, as they are
written out, -/
theorem showText_of_showable (h : ∀ m ∈ messages, m.IsShowable .text) :
    (showText messages).error = none ∧ .ofString (showText messages).stdout
      = WideString.join (messages.map fun m => m.formatted ++ .ofString "\n") := by
  induction messages with
  | nil => exact ⟨rfl, rfl⟩
  | cons m ms ih =>
    obtain ⟨herror, hjoin⟩ := ih fun n hn => h n (.tail _ hn)
    obtain ⟨line, hline, heq⟩ := (h m (.head _)).exists_printed
    rw [showText, hline]
    refine ⟨herror, ?_⟩
    dsimp only
    rw [WideString.ofString_append, heq, hjoin]
    rfl

/-- and behind them it goes on with the others. -/
theorem showText_append (h : (showText before).error = none) (after : List Message) :
    showText (before ++ after)
      = ⟨(showText before).stdout ++ (showText after).stdout, (showText after).error⟩ := by
  induction before with
  | nil => rw [List.nil_append, showText, String.empty_append]
  | cons m before ih =>
    rw [List.cons_append, showText, showText]
    rw [showText] at h
    cases hm : m.printed with
    | error e =>
      rw [hm] at h
      cases h
    | ok line =>
      rw [hm] at h
      dsimp only at h ⊢
      rw [ih h, String.append_assoc]

/-- A message that cannot be printed ends the text. -/
theorem showText_of_error {e : OutputError} (hbefore : ∀ n ∈ before, n.IsShowable .text)
    (h : m.printed = .error e) (after : List Message) :
    showText (before ++ m :: after) = ⟨(showText before).stdout, some e⟩ := by
  rw [showText_append (showText_of_showable hbefore).1, showText, h]
  dsimp only
  rw [String.append_empty]

/-- **Messages that are shown as JSON are a document of their objects.** -/
theorem showJson_of_short (hplain : ∀ m ∈ messages, m.IsPlain)
    (hshort : ∀ m ∈ messages, Text.isLong m.line = false) :
    (showJson messages).error = none ∧ Text.IsAscii (showJson messages).stdout.toList ∧
      ∀ room, Json.parse (room + 2) (showJson messages).stdout
        = .ok (.arr (messages.map Message.toJson)) := by
  have hexact : (Json.arr (messages.map Message.toJson)).IsExact := by
    refine .arr fun v hv => ?_
    obtain ⟨m, hm, rfl⟩ := List.mem_map.mp hv
    exact (hplain m hm).isExact_toJson
  have hend : Json.Blanks ['\n'] := List.forall_mem_singleton.mpr rfl
  obtain ⟨hdocument, hascii⟩ := hexact.document_render hend
  have hshown : showJson messages
      = ⟨(Json.arr (messages.map Message.toJson)).render ++ "\n", none⟩ := by
    unfold showJson
    exact if_neg (by simpa using hshort)
  have htext : ((Json.arr (messages.map Message.toJson)).render ++ "\n").toList
      = Json.renderAt 0 (.arr (messages.map Message.toJson)) ++ ['\n'] := by
    rw [Json.render, String.toList_append, String.toList_ofList]
    rfl
  rw [hshown]
  refine ⟨rfl, htext ▸ hascii, fun room => ?_⟩
  unfold Json.parse
  dsimp only
  rw [htext, (Json.document_of_document hdocument (room + 2)).1
    (Message.itemsExcess?_toJson hshort room)]
  rfl

/-- A message whose line is too long keeps all from being shown as JSON. -/
theorem showJson_of_long (hm : m ∈ messages)
    (hlong : Text.isLong m.line = true) : showJson messages = ⟨"", some .longNumber⟩ :=
  if_pos (List.any_eq_true.mpr ⟨m, hm, hlong⟩)

/-- **At the first message that cannot be shown it ends**: as text those in front
of it are shown, and as JSON nothing is. -/
theorem showMessages_of_not_showable {format : Format}
    (hbefore : ∀ n ∈ before, n.IsShowable format) (hm : ¬ m.IsShowable format)
    (after : List Message) :
    (∃ e, (showMessages format (before ++ m :: after)).error = some e) ∧
      (showMessages format (before ++ m :: after)).stdout
        = if format = .json then "" else (showText before).stdout := by
  cases format with
  | text =>
    obtain ⟨e, he⟩ := Message.exists_printed_eq_error hm
    have htext := showText_of_error hbefore he after
    refine ⟨⟨e, congrArg Shown.error htext⟩, ?_⟩
    rw [if_neg (by decide)]
    show (showText (before ++ m :: after)).stdout = _
    rw [htext]
  | json =>
    have hlong : Text.isLong m.line = true := by
      by_contra hshort
      exact hm ⟨by simpa using hshort, nofun⟩
    have hjson := @showJson_of_long (before ++ m :: after) m (by simp) hlong
    refine ⟨⟨_, congrArg Shown.error hjson⟩, ?_⟩
    rw [if_pos rfl]
    exact congrArg Shown.stdout hjson

/-- Showing messages of characters fails alike in both formats, with a line that
is too long. -/
theorem error_showMessages_of_plain (h : ∀ m ∈ messages, m.IsPlain)
    (format : Format) : (showMessages format messages).error
      = if messages.any fun m => Text.isLong m.line then some .longNumber else none := by
  cases format with
  | json =>
    show (showJson messages).error = _
    unfold showJson
    split <;> rfl
  | text =>
    show (showText messages).error = _
    induction messages with
    | nil => rfl
    | cons m ms ih =>
      rw [showText, List.any_cons]
      cases hlong : Text.isLong m.line with
      | true => rw [Message.printed_of_long hlong, Bool.true_or, if_pos rfl]
      | false =>
        obtain ⟨line, hline, -⟩ :=
          Message.IsShowable.exists_printed ⟨hlong, fun _ => h m (.head _)⟩
        rw [hline, Bool.false_or]
        exact ih fun n hn => h n (.tail _ hn)

/-! ## Answers -/

/-- The answer to a review that succeeds: its messages are shown, and the exit
status says whether there are any where this is asked for. -/
theorem answerReview_of_ok (options : Options) (threshold : Nat) {o : Outcome (List Message)}
    (h : o.result = .ok messages) :
    (answerReview options threshold o).calls = o.calls ∧
      (answerReview options threshold o).stdout = (showMessages options.format messages).stdout ∧
      (answerReview options threshold o).ending = (showMessages options.format messages).error.elim
        (.finished (if options.exitCode && !messages.isEmpty then 1 else 0))
        fun e => .aborted (.output e) := by
  unfold answerReview
  rw [h]
  exact ⟨rfl, rfl, rfl⟩

/-- A run that gets as far as its review answers with it. -/
theorem run_eq {w : World} {argv : List String} {options : Options} {settings : Settings}
    {threshold : Nat} (hargv : Options.parse argv = .ok options)
    (hsettings : Settings.read w = .ok settings)
    (hlevel : levelRanks.lookup (Text.upper settings.logLevel) = some threshold) :
    run w argv = answerReview options threshold (reviewChange w options settings) := by
  unfold run
  rw [hargv]
  show runWith w options = _
  unfold runWith
  rw [hsettings]
  dsimp only
  rw [hlevel]

/-- **The JSON output decodes to the messages, and the text output is made of
what is decoded**, if no line is too long to be written. This is so of every
list of messages of characters that a review ends up with, and a run whose
command line asks for either format ends with showing its review. At the first
message whose line is too long a run breaks off: as text it has shown the
messages in front of it by then, and as JSON nothing. -/
theorem answerReview_shows (options : Options) (threshold : Nat) {o : Outcome (List Message)}
    {messages : List Message} (h : o.result = .ok messages)
    (hplain : ∀ m ∈ messages, m.IsPlain) :
    let answer (format : Format) := answerReview { options with format } threshold o
    ((∀ m ∈ messages, Text.isLong m.line = false) →
      Text.IsAscii (answer .json).stdout.toList ∧
      (∀ room, Json.parse (room + 2) (answer .json).stdout = .ok (.arr (messages.map fun m => .obj
        [("path", .str m.path), ("line", .int m.line), ("level", m.level.elim .null .str),
          ("msg", m.text.elim .null .str), ("commit_sha", .null), ("runner", .str m.runner)]))) ∧
      ∃ decoded, (∀ room, (Json.parse (room + 2) (answer .json).stdout).toOption.bind
          Message.listOfJson? = some decoded) ∧
        WideString.ofString (answer .text).stdout = .join (decoded.map fun m =>
          m.path ++ ":" ++ toString m.line ++ ": " ++
            (m.level.filter (· ≠ .ofString "")).getD "unknown" ++ ": " ++ m.text.getD "" ++ "\n")) ∧
    (∀ before m after, messages = before ++ m :: after →
      (∀ n ∈ before, Text.isLong n.line = false) → Text.isLong m.line = true →
      (∀ format, (answer format).ending = .aborted (.output .longNumber)) ∧
        (answer .json).stdout = "" ∧
        WideString.ofString (answer .text).stdout = .join (before.map fun m =>
          m.path ++ ":" ++ toString m.line ++ ": " ++
            (m.level.filter (· ≠ .ofString "")).getD "unknown" ++ ": " ++ m.text.getD "" ++ "\n")) ∧
    ∀ (w : World) (argv : List String) (format : Format) (settings : Settings),
      Options.parse argv = .ok { options with format } → Settings.read w = .ok settings →
      levelRanks.lookup (Text.upper settings.logLevel) = some threshold →
      o = reviewChange w options settings → run w argv = answer format := by
  intro answer
  have hanswer (format : Format) := answerReview_of_ok { options with format } threshold h
  refine ⟨fun hshort => ?_, fun before m after hmessages hshort hlong => ?_,
    fun w argv format settings hargv hsettings hlevel ho => ?_⟩
  · obtain ⟨-, hascii, hparse⟩ := showJson_of_short hplain hshort
    have hjson : (answer .json).stdout = (showJson messages).stdout := (hanswer .json).2.1
    have htext : (answer .text).stdout = (showText messages).stdout := (hanswer .text).2.1
    have hshowable : ∀ m ∈ messages, m.IsShowable .text :=
      fun m hm => ⟨hshort m hm, fun _ => hplain m hm⟩
    rw [hjson, htext]
    refine ⟨hascii, hparse, messages, fun room => ?_, (showText_of_showable hshowable).2⟩
    rw [hparse]
    exact Message.listOfJson?_toJson messages
  · subst hmessages
    have hbefore (format : Format) : ∀ n ∈ before, n.IsShowable format :=
      fun n hn => ⟨hshort n hn, fun _ => hplain n (List.mem_append_left _ hn)⟩
    have hhidden (format : Format) : ¬ m.IsShowable format :=
      fun hm => Bool.false_ne_true (hm.1.symm.trans hlong)
    have hstdout (format : Format) : (answer format).stdout
        = if format = .json then "" else (showText before).stdout :=
      (hanswer format).2.1.trans
        (showMessages_of_not_showable (hbefore format) (hhidden format) after).2
    refine ⟨fun format => ?_, hstdout .json, ?_⟩
    · refine (hanswer format).2.2.trans ?_
      rw [error_showMessages_of_plain hplain,
        if_pos (List.any_eq_true.mpr ⟨m, List.mem_append_right _ (.head _), hlong⟩)]
      rfl
    · rw [hstdout .text, if_neg (by decide)]
      exact (showText_of_showable (hbefore .text)).2
  · subst ho
    exact run_eq hargv hsettings hlevel

/-- A review with messages that need escapes, of all kinds, in JSON. -/
def oddReview : Outcome (List Message) where
  result := .ok [⟨"/r/é\"\\.py", -3, some "", none, "p"⟩, ⟨"/r/a.py", 2, none, some "\n\x7f😀", "p"⟩]
  events := []
  calls := []

/-- What is shown of `oddReview` as text can be made from its JSON. -/
theorem answerReview_oddReview :
    let options : Options := ⟨none, none, .text, false⟩
    let json := (answerReview { options with format := .json } 30 oddReview).stdout
    Text.IsAscii json.toList ∧
      (∃ decoded, (Json.parse 2 json).toOption.bind Message.listOfJson? = some decoded ∧
        decoded.map Message.path = ["/r/é\"\\.py", "/r/a.py"]) ∧
      (answerReview options 30 oddReview).stdout
        = "/r/é\"\\.py:-3: unknown: \n/r/a.py:2: unknown: \n\x7f😀\n" := by
  have hplain (s : Option String) : ∀ t ∈ s.map WideString.ofString, t.IsPlain := by
    intro t ht
    obtain ⟨u, -, rfl⟩ := Option.map_eq_some_iff.mp ht
    exact WideString.isPlain_ofString u
  obtain ⟨hshows, -, -⟩ := answerReview_shows ⟨none, none, .text, false⟩ 30 (o := oddReview) rfl
    (List.forall_mem_cons.mpr ⟨⟨hplain (some ""), hplain none⟩,
      List.forall_mem_singleton.mpr ⟨hplain none, hplain (some "\n\x7f😀")⟩⟩)
  obtain ⟨hascii, hparse, decoded, hdecoded, htext⟩ := hshows (by decide +kernel)
  refine ⟨hascii, ⟨decoded, hdecoded 0, ?_⟩, by decide +kernel⟩
  have h := hdecoded 0
  rw [hparse] at h
  cases h
  rfl

/-- A review with a message on the line behind the last one whose number can be
written. -/
def longReview : Outcome (List Message) where
  result := .ok [⟨"/r/a.py", Text.leastLong, some "error", some "unused", "p"⟩]
  events := []
  calls := []

/-- **Nothing is shown of a message whose line is too long**, in either format. -/
theorem answerReview_longReview :
    let options : Options := ⟨none, none, .text, false⟩
    answerReview { options with format := .json } 30 longReview
        = ⟨.aborted (.output .longNumber), "", [], []⟩ ∧
      answerReview options 30 longReview = ⟨.aborted (.output .longNumber), "", [], []⟩ := by
  have hlong := Text.isLong_leastLong
  unfold answerReview longReview showMessages
  dsimp only
  generalize (Text.leastLong : Int) = line at hlong ⊢
  constructor
  · rw [showJson_of_long (.head _) hlong]
    rfl
  · rw [showText, Message.printed_of_long hlong]
    rfl

end ChangeReview
