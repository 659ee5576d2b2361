import ChangeReview.Text.Digit
import ChangeReview.Text.Quoted

/-!
# The command line

The words of a command line are told apart one by one: a flag, with or without a value attached to
it, a word that looks like a flag and is none, or a stray word. They are then taken from left to
right. A flag that needs a value takes the one attached to it, or else the stray word that comes
next; a later value replaces an earlier one. There is no place for other words, so they are
collected and refused at the end, unless something else ends the reading before.

A long name may be cut short as long as one flag only starts this way. Behind a double dash every
word is stray.
-/

namespace ChangeReview

/-- A flag of the command line. -/
inductive Flag where
  | help
  | commit
  | diffFile
  | format
  | exitCode
  deriving DecidableEq, Repr

namespace Flag

/-- All flags, in the order in which they are listed. -/
def all : List Flag := [.help, .commit, .diffFile, .format, .exitCode]

/-- The long name of a flag, without its dashes. -/
def long : Flag → List Char
  | .help => "help".toList
  | .commit => "commit".toList
  | .diffFile => "diff-file".toList
  | .format => "format".toList
  | .exitCode => "exit-code".toList

/-- The letter of a flag, where it has one. -/
def letter? : Flag → Option Char
  | .help => some 'h'
  | .commit => some 'c'
  | .format => some 'f'
  | .diffFile | .exitCode => none

/-- The flag with a given letter. -/
def ofLetter? (c : Char) : Option Flag := all.find? fun f => f.letter? == some c

/-- The flags whose long names start in a given way. -/
def startingWith (name : List Char) : List Flag := all.filter fun f => name.isPrefixOf f.long

/-- Whether a flag needs a value. -/
def takesValue : Flag → Bool
  | .commit | .diffFile | .format => true
  | .help | .exitCode => false

/-- The name of a flag in messages. -/
def label (f : Flag) : String :=
  let long := "--" ++ String.ofList f.long
  match f.letter? with
  | some c => s!"-{c}/{long}"
  | none => long

end Flag

/-- How the messages are shown. -/
inductive Format where
  | text
  | json
  deriving DecidableEq, Repr

/-- Where the diff comes from when it is not made here. -/
inductive DiffFile where
  | stdin
  | named (name : String)
  /-- A name was to be given and none was. -/
  | unnamed
  deriving DecidableEq, Repr

/-- What a command line asks for. -/
structure Options where
  commit : Option String
  diffFile : Option DiffFile
  format : Format
  exitCode : Bool
  deriving DecidableEq, Repr

/-- What the empty command line asks for. -/
def Options.default : Options := ⟨none, none, .text, false⟩

/-- What can be wrong with a command line. -/
inductive UsageError where
  | ambiguous (word : String) (candidates : List Flag)
  | missingValue (f : Flag)
  | unexpectedValue (f : Flag) (value : String)
  | badFormat (value : String)
  | unrecognized (words : List String)
  deriving DecidableEq, Repr

/-- The wording of what is wrong with a command line. -/
def UsageError.message : UsageError → String
  | .ambiguous word candidates =>
    let names := ", ".intercalate (candidates.map fun f => "--" ++ String.ofList f.long)
    s!"ambiguous option: {word} could match {names}"
  | .missingValue f => s!"argument {f.label}: expected one argument"
  | .unexpectedValue f value =>
    s!"argument {f.label}: ignored explicit argument {Text.quoted value}"
  | .badFormat value =>
    s!"argument -f/--format: invalid choice: {Text.quoted value} (choose from 'text', 'json')"
  | .unrecognized words =>
    let words := " ".intercalate words
    s!"unrecognized arguments: {words}"

/-- How the reading of a command line can end without options. -/
inductive Refusal where
  | help
  | usage (e : UsageError)
  deriving DecidableEq, Repr

/-- A word of a command line. -/
inductive Word where
  /-- A flag by its long name, and the value behind an equals sign. -/
  | long (f : Flag) (attached : Option (List Char))
  /-- A flag by its letter, and what is attached to the letter, an equals sign left out. -/
  | short (f : Flag) (attached : Option (List Char))
  /-- The start of several long names. -/
  | ambiguous (text : String) (candidates : List Flag)
  /-- A word that looks like a flag and is none. -/
  | unknown (text : String)
  /-- A word that looks like no flag. -/
  | stray (text : String)
  /-- The double dash, and the words behind it. -/
  | divider
  deriving DecidableEq, Repr

namespace Word

/-- Whether a text is a number behind its minus sign; it may end in a line feed. -/
def isNumber (cs : List Char) : Bool :=
  let cs := if cs.getLast? = some '\n' then cs.dropLast else cs
  match cs.dropWhile Text.isDigit with
  | [] => !cs.isEmpty
  | '.' :: rest => !rest.isEmpty && rest.all Text.isDigit
  | _ => false

/-- A word with a dash in front that names no flag: it can still be a number or hold a space, and is
no flag then. -/
def ofUnknown (cs : List Char) : Word :=
  if isNumber (cs.drop 1) || cs.contains ' ' then .stray (String.ofList cs)
  else .unknown (String.ofList cs)

/-- What a word is that is not the double dash. -/
def ofText (cs : List Char) : Word :=
  match cs with
  | '-' :: '-' :: body =>
    let attached :=
      match body.dropWhile (· != '=') with
      | [] => none
      | _ :: value => some value
    match Flag.startingWith (body.takeWhile (· != '=')) with
    | [] => ofUnknown cs
    | [f] => .long f attached
    | candidates => .ambiguous (String.ofList cs) candidates
  | '-' :: c :: rest =>
    match Flag.ofLetter? c, rest with
    | none, _ => ofUnknown cs
    | some f, [] => .short f none
    -- One equals sign between the letter and the value is no part of the value.
    | some f, '=' :: value => .short f (some value)
    | some f, value => .short f (some value)
  | _ => .stray (String.ofList cs)

/-- What the words of a command line are. -/
def ofTexts : List String → List Word
  | [] => []
  | s :: rest =>
    if s = "--" then .divider :: rest.map .stray else ofText s.toList :: ofTexts rest

/-- The first word that may mean several flags. -/
def ambiguity? (words : List Word) : Option UsageError :=
  words.findSome? fun
    | .ambiguous text candidates => some (.ambiguous text candidates)
    | _ => none

/-- The text of a word that is no flag. -/
def text : Word → String
  | .ambiguous text _ | .unknown text | .stray text => text
  | .divider => "--"
  | .long .. | .short .. => ""

end Word

namespace Options

/-- The options with the value of a flag taken in. A value that is an attached double dash is none.
-/
def set (o : Options) (f : Flag) (value : Option String) : Except Refusal Options :=
  match f, value with
  | .help, _ => .error .help
  | .exitCode, _ => .ok { o with exitCode := true }
  | .commit, value => .ok { o with commit := value }
  | .diffFile, none => .ok { o with diffFile := some .unnamed }
  | .diffFile, some "-" => .ok { o with diffFile := some .stdin }
  | .diffFile, some name => .ok { o with diffFile := some (.named name) }
  | .format, none | .format, some "text" => .ok { o with format := .text }
  | .format, some "json" => .ok { o with format := .json }
  | .format, some value => .error (.usage (.badFormat value))

/-- The options with an attached value taken in. -/
def setAttached (o : Options) (f : Flag) (value : List Char) : Except Refusal Options :=
  o.set f (if value = ['-', '-'] then none else some (String.ofList value))

/-- What comes of the letters behind the letter of a flag that takes no value: they have to be
letters of flags too, the last of which may have its value attached. The only such flag asks for
help, so what they are is all that matters; `next` says whether a stray word comes next. -/
def afterHelp (next : Bool) : List Char → Refusal
  | [] => .usage (.unexpectedValue .help "")
  | c :: rest =>
    match Flag.ofLetter? c with
    | none => .usage (.unexpectedValue .help (String.ofList (c :: rest)))
    | some f =>
      if f.takesValue then if rest = [] && !next then .usage (.missingValue f) else .help
      else if rest = [] then .help
      else afterHelp next rest

/-- Whether the first word is stray. -/
def strayNext : List Word → Bool
  | .stray _ :: _ => true
  | _ => false

/-- The options with the words taken in from left to right; `extra` holds the words that there was
no place for, the last one first. -/
def ofWords (o : Options) (extra : List String) : List Word → Except Refusal Options
  | [] => if extra = [] then .ok o else .error (.usage (.unrecognized extra.reverse))
  | .long f (some value) :: rest =>
    if f.takesValue then do ofWords (← o.setAttached f value) extra rest
    else .error (.usage (.unexpectedValue f (String.ofList value)))
  | .short f (some value) :: rest =>
    if f.takesValue then do ofWords (← o.setAttached f value) extra rest
    else .error (afterHelp (strayNext rest) value)
  | .long f none :: rest | .short f none :: rest =>
    if f.takesValue then
      match rest with
      | .stray value :: rest => do ofWords (← o.set f (some value)) extra rest
      | _ => .error (.usage (.missingValue f))
    else do ofWords (← o.set f none) extra rest
  | w :: rest => ofWords o (w.text :: extra) rest

/-- What a command line asks for. -/
def parse (argv : List String) : Except Refusal Options :=
  let words := Word.ofTexts argv
  match Word.ambiguity? words with
  | some e => .error (.usage e)
  | none => ofWords .default [] words

end Options

/-- The short description of the command line. -/
def usageText : String :=
  "usage: pyright-review [-h] [-c COMMIT] [--diff-file DIFF_FILE]\n" ++
  "                      [-f \x7btext,json\x7d] [--exit-code]\n"

/-- The long description of the command line. -/
def helpText : String :=
  usageText ++
  "\n" ++
  "Report pyright diagnostics that fall on lines added by a change.\n" ++
  "\n" ++
  "options:\n" ++
  "  -h, --help            show this help message and exit\n" ++
  "  -c COMMIT, --commit COMMIT\n" ++
  "                        commit to diff the working tree against\n" ++
  "  --diff-file DIFF_FILE\n" ++
  "                        read the unified diff from a file ('-' for stdin)\n" ++
  "  -f \x7btext,json\x7d, --format \x7btext,json\x7d\n" ++
  "  --exit-code           exit with status 1 when any message is reported\n"

/-- What is said of a command line that something is wrong with. -/
def UsageError.report (e : UsageError) : String :=
  usageText ++ s!"pyright-review: error: {e.message}\n"

end ChangeReview
