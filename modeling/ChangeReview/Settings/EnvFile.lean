import ChangeReview.Text.Blank

/-!
# Files of variables

A file of variables is a run of statements, one to a line: a name, an equals sign and a value, which
may be quoted and may then go on over several lines. Statements may start with `export`, and end in
a comment. A name without a value sets nothing, and a statement that cannot be read is left out up
to the end of its line.

In a value, a name between a dollar sign and braces stands for a variable: one of the file that was
set before, or else one of the environment, or else the default that may be given with the name.
-/

namespace ChangeReview.EnvFile

/-- A blank that does not end a line. -/
def isInlineBlank (c : Char) : Bool := Text.isBlank c && c != '\n' && c != '\r'

/-- Whether a character stays on its line. -/
def isInline (c : Char) : Bool := c != '\n' && c != '\r'

/-- The text behind the word that marks a variable for export and the blanks behind it. -/
def behindExport (cs : List Char) : List Char :=
  match "export".toList.isPrefixOf? cs with
  | some (c :: rest) => if isInlineBlank c then rest.dropWhile isInlineBlank else cs
  | _ => cs

/-- The name of a variable: none in front of a comment. Fails where no name can be read. -/
def name? (cs : List Char) : Option (Option (List Char) × List Char) :=
  match cs with
  | '#' :: _ => some (none, cs)
  | '\'' :: rest =>
    match rest.takeWhile (· != '\''), rest.dropWhile (· != '\'') with
    | [], _ => none
    | _, [] => none
    | name, _ :: left => some (some name, left)
  | _ =>
    let inName (c : Char) : Bool := c != '=' && c != '#' && !Text.isBlank c
    match cs.takeWhile inName with
    | [] => none
    | name => some (some name, cs.dropWhile inName)

/-- The text up to the first quote that has no backslash right before it, and the text behind that
quote; `escaped` says whether a backslash stands right before the text. -/
def untilOpenQuote (q : Char) (escaped : Bool) : List Char → Option (List Char × List Char)
  | [] => none
  | c :: rest =>
    if c = q && !escaped then some ([], rest)
    else (untilOpenQuote q (c == '\\') rest).map fun (cs, left) => (c :: cs, left)

/-- The text up to the last quote, and the text behind that quote. -/
def untilLastQuote (q : Char) : List Char → Option (List Char × List Char)
  | [] => none
  | c :: rest =>
    match untilLastQuote q rest with
    | some (cs, left) => some (c :: cs, left)
    | none => if c = q then some ([], rest) else none

/-- What stands behind an opening quote up to the closing one, and what follows. A backslash keeps a
quote from closing, unless nothing would close at all. -/
def quoted? (q : Char) (cs : List Char) : Option (List Char × List Char) :=
  (untilOpenQuote q false cs).or (untilLastQuote q cs)

/-- What a character behind a backslash stands for between quotes `q`; the others keep the
backslash. -/
def escape? (q c : Char) : Option Char :=
  if c = '\\' then some '\\'
  else if c = '\'' then some '\''
  else if q = '\'' then none
  else
    match c with
    | '"' => some '"'
    | 'a' => some '\x07'
    | 'b' => some '\x08'
    | 'f' => some '\x0c'
    | 'n' => some '\n'
    | 'r' => some '\r'
    | 't' => some '\t'
    | 'v' => some '\x0b'
    | _ => none

/-- A quoted text with its escapes undone. -/
def unescape (q : Char) : List Char → List Char
  | '\\' :: c :: rest =>
    match escape? q c with
    | some e => e :: unescape q rest
    | none => '\\' :: unescape q (c :: rest)
  | c :: rest => c :: unescape q rest
  | [] => []

/-- The text up to a comment; `blank` says whether a blank stands right before the text, as it has
to before a comment. -/
def uncommented (blank : Bool) : List Char → List Char
  | [] => []
  | c :: rest => if blank && c == '#' then [] else c :: uncommented (Text.isBlank c) rest

/-- The value behind an equals sign, and the text behind the value. -/
def value? (cs : List Char) : Option (List Char × List Char) :=
  let text := cs.dropWhile isInlineBlank
  match text with
  | '\'' :: rest => (quoted? '\'' rest).map fun (v, left) => (unescape '\'' v, left)
  | '"' :: rest => (quoted? '"' rest).map fun (v, left) => (unescape '"' v, left)
  | _ =>
    let blank := cs.head?.any isInlineBlank
    some (Text.trimRight (uncommented blank (text.takeWhile isInline)), text.dropWhile isInline)

/-- The text behind the end of a line, where nothing but a comment stands before it. -/
def behindLine? (cs : List Char) : Option (List Char) :=
  let cs := cs.dropWhile isInlineBlank
  match if cs.head? = some '#' then cs.dropWhile isInline else cs with
  | [] => some []
  | '\r' :: '\n' :: rest => some rest
  | c :: rest => if isInline c then none else some rest

/-- What a statement says: the name of a variable, and its value if it has one. -/
structure Statement where
  name : Option (List Char)
  value : Option (List Char)

/-- One statement, and the text behind it. A statement that cannot be read gives none, and the text
behind the line on which the reading broke off. -/
def statement (cs : List Char) : Option Statement × List Char :=
  let broken (cs : List Char) : Option Statement × List Char :=
    (none, (cs.dropWhile isInline).drop 1)
  let start := behindExport (cs.dropWhile Text.isBlank)
  match name? start with
  | none => broken start
  | some (name, afterName) =>
    let afterName := afterName.dropWhile isInlineBlank
    let read (value : Option (List Char)) (left : List Char) : Option Statement × List Char :=
      match behindLine? left with
      | some rest => (some ⟨name, value⟩, rest)
      | none => broken left
    match afterName with
    | '=' :: rest =>
      match value? rest with
      | some (value, left) => read (some value) left
      | none => broken (rest.dropWhile isInlineBlank)
    | _ => read none afterName

/-- The first statements of a text, no more than `fuel` of them. -/
def statementsUpTo : Nat → List Char → List Statement
  | 0, _ => []
  | fuel + 1, cs =>
    if (cs.dropWhile Text.isBlank).isEmpty then []
    else
      let (s, rest) := statement cs
      s.toList ++ statementsUpTo fuel rest

/-- The statements of a text; there are no more of them than characters. -/
def statements (cs : List Char) : List Statement := statementsUpTo cs.length cs

/-- A variable by its name, and the default that takes its place where it is not set. -/
def reference? (cs : List Char) : Option (List Char × List Char × List Char) := do
  let cs ← ['$', '\x7b'].isPrefixOf? cs
  let inName (c : Char) : Bool := c != '\x7d' && c != ':'
  let name := cs.takeWhile inName
  let rest := cs.dropWhile inName
  match [':', '-'].isPrefixOf? rest with
  | some more =>
    match more.dropWhile (· != '\x7d') with
    | [] => none
    | _ :: left => some (name, more.takeWhile (· != '\x7d'), left)
  | none =>
    match rest with
    | '\x7d' :: left => some (name, [], left)
    | _ => none

/-- The text with its references to variables replaced by what `lookup` gives for a name; `skip`
characters of the text belong to a reference that is done with. -/
def expandFrom (lookup : String → Option String) : Nat → List Char → List Char
  | _, [] => []
  | skip + 1, _ :: rest => expandFrom lookup skip rest
  | 0, c :: rest =>
    match reference? (c :: rest) with
    | some (name, default, left) =>
      ((lookup (String.ofList name)).map String.toList).getD default ++
        expandFrom lookup (rest.length - left.length) rest
    | none => c :: expandFrom lookup 0 rest

/-- A list of variables in the order in which they were first set. -/
abbrev Variables := List (String × Option String)

/-- The variables with one of them set; it keeps its place when it was set before. -/
def Variables.set (vs : Variables) (name : String) (value : Option String) : Variables :=
  if vs.any (·.1 == name) then vs.map fun v => if v.1 == name then (name, value) else v
  else vs ++ [(name, value)]

/-- What a name stands for in a value: a variable of the file without a value stands for nothing,
and one that is not set in the file for the one in the environment. -/
def Variables.lookup (vs : Variables) (env : List (String × String)) (name : String) :
    Option String :=
  match vs.find? (·.1 == name) with
  | some v => some (v.2.getD "")
  | none => (env.reverse.find? (·.1 == name)).map (·.2)

/-- The variables that a file sets, in an environment. -/
def read (env : List (String × String)) (text : String) : Variables :=
  (statements text.toList).foldl (fun vs s =>
    match s.name with
    | none => vs
    | some name =>
      vs.set (String.ofList name)
        (s.value.map fun v => String.ofList (expandFrom (vs.lookup env) 0 v))) []

end ChangeReview.EnvFile
