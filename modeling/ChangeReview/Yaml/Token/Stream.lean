import ChangeReview.Yaml.Token.Block
import ChangeReview.Yaml.Token.Name
import ChangeReview.Yaml.Token.Plain
import ChangeReview.Yaml.Token.Quoted

/-!
# The tokens of a document

The tokens of a document are taken from its text one by one, in a single pass. Three things decide
what a character means: whether it stands in a flow collection, how far the lines of the blocks
around it are indented, and whether a key may start where it stands.

## Keys

That a node was a key is only known when the colon behind it is met. So the place of a node that may
turn out to be a key is remembered (`Candidate`), one for each collection that is open, and when a
colon comes, the mark of the key is put in front of that node, behind the start of a mapping where
the node is the first key of a block. A candidate is given up when its line ends or when it has
become too long; where nothing but a key can stand, that is an error.

## Blocks

A block starts where an entry or a key stands deeper than the blocks around it, and ends where a
line starts less deep. Only the columns of the open blocks are remembered.
-/

namespace ChangeReview.Yaml

/-- A node that may turn out to be a key. -/
structure Candidate where
  /-- The number of tokens before it. -/
  before : Nat
  /-- Whether nothing but a key can stand in its place. -/
  required : Bool
  index : Nat
  line : Nat
  column : Nat
  deriving DecidableEq, Repr

/-- Where the taking of tokens stands. -/
structure Scan where
  cursor : Cursor
  /-- The column of the innermost block, or minus one outside all blocks. -/
  indent : Int
  /-- The columns of the blocks around it. -/
  outer : List Int
  /-- The candidate of the innermost collection. -/
  candidate : Option Candidate
  /-- The candidates of the collections around the open flow collections. -/
  outerCandidates : List (Option Candidate)
  /-- Whether a key may start here. -/
  keyAllowed : Bool
  /-- The tokens taken so far, the last one first, and their number. -/
  tokens : List Token
  count : Nat

namespace Scan

/-- The state before the first character. -/
def start (cs : List Char) : Scan := ⟨.start cs, -1, [], none, [], true, [], 0⟩

/-- Whether the place is in a flow collection. -/
def inFlow (s : Scan) : Bool := !s.outerCandidates.isEmpty

/-- The state with one more token. -/
def push (s : Scan) (t : Token) : Scan := { s with tokens := t :: s.tokens, count := s.count + 1 }

/-- The state so many characters on. -/
def advance (s : Scan) (n : Nat) : Scan := { s with cursor := s.cursor.advance n }

/-- The number of characters up to the next token, and whether a line ends among them. Comments are
passed over; `comment` says whether the text stands in one. -/
def gap (comment : Bool) : List Char → Nat × Bool
  | [] => (0, false)
  | c :: rest =>
    if isBreak c then ((gap false rest).1 + 1, true)
    else if comment ∨ c = '#' then
      let (n, lineEnd) := gap true rest
      (n + 1, lineEnd)
    else if c = ' ' then
      let (n, lineEnd) := gap false rest
      (n + 1, lineEnd)
    else (0, false)

/-- Goes on to the next token; behind a line end a key may start, unless in a flow collection. -/
def skipGap (s : Scan) : Scan :=
  let s := if s.cursor.index = 0 ∧ s.cursor.rest.head? = some '\uFEFF' then s.advance 1 else s
  let (n, lineEnd) := gap false s.cursor.rest
  { s.advance n with keyAllowed := s.keyAllowed || (lineEnd && !s.inFlow) }

/-- The greatest number of characters from the start of a key to its colon. -/
def keyLimit : Nat := 1024

/-- A candidate as seen from a place: given up when it stands on another line or too far back. -/
def Candidate.at? (c : Cursor) (candidate : Option Candidate) : Option (Option Candidate) :=
  match candidate with
  | none => some none
  | some k =>
    if k.line = c.line ∧ c.index - k.index ≤ keyLimit then some (some k)
    else if k.required then none
    else some none

/-- Gives up the candidates that are out of reach. -/
def dropStale (s : Scan) : Option Scan := do
  let candidate ← Candidate.at? s.cursor s.candidate
  let outerCandidates ← s.outerCandidates.mapM (Candidate.at? s.cursor)
  return { s with candidate, outerCandidates }

/-- Gives up the candidate of the innermost collection. -/
def dropCandidate (s : Scan) : Option Scan :=
  if s.candidate.any (·.required) then none else some { s with candidate := none }

/-- Remembers the place as that of a node that may turn out to be a key. -/
def saveCandidate (s : Scan) : Option Scan :=
  if s.keyAllowed then do
    let required := !s.inFlow && s.indent == s.cursor.column
    let s ← s.dropCandidate
    return { s with
      candidate := some ⟨s.count, required, s.cursor.index, s.cursor.line, s.cursor.column⟩ }
  else some s

/-- Ends blocks: as many ends as there are columns deeper than `column`. -/
def closeBlocks (column : Int) : Int → List Int → Nat × Int × List Int
  | indent, [] => if column < indent then (1, -1, []) else (0, indent, [])
  | indent, next :: outer =>
    if column < indent then
      let (n, rest) := closeBlocks column next outer
      (n + 1, rest)
    else (0, indent, next :: outer)

/-- Ends the blocks that are deeper than a column. -/
def unwind (s : Scan) (column : Int) : Scan :=
  if s.inFlow then s
  else
    let (n, indent, outer) := closeBlocks column s.indent s.outer
    { s with
      indent, outer, tokens := List.replicate n .blockEnd ++ s.tokens, count := s.count + n }

/-- Starts a block at a column, if it is deeper than the one around it. -/
def openBlock (s : Scan) (column : Nat) (t : Token) : Scan :=
  if s.indent < column then
    { s.push t with indent := column, outer := s.indent :: s.outer }
  else s

/-- A mark between documents, or a directive: all blocks end before it. -/
def documentMark (s : Scan) (t : Token) (n : Nat) : Option Scan := do
  let s ← (s.unwind (-1)).dropCandidate
  return ({ s with keyAllowed := false }.push t).advance n

/-- The start of a flow collection. -/
def flowStart (s : Scan) (t : Token) : Option Scan := do
  let s ← s.saveCandidate
  return { (s.push t).advance 1 with
    candidate := none, outerCandidates := s.candidate :: s.outerCandidates, keyAllowed := true }

/-- The end of a flow collection. -/
def flowEnd (s : Scan) (t : Token) : Option Scan := do
  let s ← s.dropCandidate
  match s.outerCandidates with
  | [] => none
  | candidate :: outerCandidates =>
    return { (s.push t).advance 1 with candidate, outerCandidates, keyAllowed := false }

/-- A comma. -/
def flowEntry (s : Scan) : Option Scan := do
  let s ← s.dropCandidate
  return { (s.push .flowEntry).advance 1 with keyAllowed := true }

/-- The dash of an entry. -/
def blockEntry (s : Scan) : Option Scan := do
  if !s.inFlow ∧ !s.keyAllowed then none
  else
    let s := if s.inFlow then s else s.openBlock s.cursor.column .blockSequenceStart
    let s ← s.dropCandidate
    return { (s.push .blockEntry).advance 1 with keyAllowed := true }

/-- The question mark of a key. -/
def key (s : Scan) : Option Scan := do
  if !s.inFlow ∧ !s.keyAllowed then none
  else
    let s := if s.inFlow then s else s.openBlock s.cursor.column .blockMappingStart
    let s ← s.dropCandidate
    return { (s.push .key).advance 1 with keyAllowed := !s.inFlow }

/-- Puts the mark of a key in front of the candidate, and the start of a mapping before that where
the candidate stands deeper than the block around it. -/
def markKey (s : Scan) (k : Candidate) : Scan :=
  let since := s.count - k.before
  let behind := s.tokens.take since
  let before := s.tokens.drop since
  if !s.inFlow ∧ s.indent < k.column then
    { s with
      tokens := behind ++ .key :: .blockMappingStart :: before, count := s.count + 2,
      indent := k.column, outer := s.indent :: s.outer }
  else { s with tokens := behind ++ .key :: before, count := s.count + 1 }

/-- The colon of a value. -/
def value (s : Scan) : Option Scan :=
  match s.candidate with
  | some k =>
    -- Behind the colon of a key on the same line, no further key may start in a block.
    let s := { s.markKey k with candidate := none, keyAllowed := false }
    some ((s.push .value).advance 1)
  | none =>
    if !s.inFlow ∧ !s.keyAllowed then none
    else
      let s := if s.inFlow then s else s.openBlock s.cursor.column .blockMappingStart
      some { (s.push .value).advance 1 with keyAllowed := !s.inFlow }

/-- A token that a node can start with, of so many characters. -/
def nodeStart (s : Scan) (t : Token) (n : Nat) : Option Scan := do
  let s ← s.saveCandidate
  return { (s.push t).advance n with keyAllowed := false }

/-- A block scalar. -/
def blockScalar (s : Scan) (folded : Bool) : Option Scan := do
  let s ← s.dropCandidate
  let (text, cursor) ← Block.read? folded s.indent s.cursor
  return { s.push (.scalar (String.ofList text) false) with cursor, keyAllowed := true }

/-- A quoted scalar. -/
def quotedScalar (s : Scan) (double : Bool) : Option Scan := do
  let (text, n) ← Quoted.read double 0 .none (s.cursor.rest.drop 1)
  s.nodeStart (.scalar (String.ofList text) false) (n + 1)

/-- A plain scalar. -/
def plainScalar (s : Scan) : Option Scan :=
  let (text, n) := Plain.read s.inFlow (s.indent + 1).toNat .none s.cursor.rest
  s.nodeStart (.scalar (String.ofList text) true) n

/-- The characters that a plain scalar may not start with. -/
def indicators : List Char := "-?:,[]\x7b\x7d#&*!|>'\"%@\x60".toList

/-- Whether a plain scalar starts here. -/
def startsPlain (flow : Bool) : List Char → Bool
  | [] => false
  | c :: rest =>
    !(isBlank c || isBreak c || c ∈ indicators) ||
      (!atBlank rest && (c == '-' || (!flow && (c == '?' || c == ':'))))

/-- Takes the token that starts with a character. -/
def token (s : Scan) (c : Char) (rest : List Char) : Option Scan :=
  let cs := c :: rest
  let atMargin := s.cursor.column = 0
  let here := s.inFlow || atBlank rest
  if atMargin ∧ c = '%' then do
    let (d, n) ← Name.directive? cs
    s.documentMark (.directive d) n
  else if atMargin ∧ atDocumentStart cs then s.documentMark .documentStart 3
  else if atMargin ∧ atDocumentEnd cs then s.documentMark .documentEnd 3
  else if c = '[' then s.flowStart .flowSequenceStart
  else if c = '\x7b' then s.flowStart .flowMappingStart
  else if c = ']' then s.flowEnd .flowSequenceEnd
  else if c = '\x7d' then s.flowEnd .flowMappingEnd
  else if c = ',' then s.flowEntry
  else if c = '-' ∧ atBlank rest then s.blockEntry
  else if c = '?' ∧ here then s.key
  else if c = ':' ∧ here then s.value
  else if c = '*' then do
    let (name, n) ← Name.anchor? rest
    s.nodeStart (.alias name) (n + 1)
  else if c = '&' then do
    let (name, n) ← Name.anchor? rest
    s.nodeStart (.anchor name) (n + 1)
  else if c = '!' then do
    let (t, n) ← Name.tag? cs
    s.nodeStart t n
  else if c = '|' ∧ !s.inFlow then s.blockScalar false
  else if c = '>' ∧ !s.inFlow then s.blockScalar true
  else if c = '\'' then s.quotedScalar false
  else if c = '"' then s.quotedScalar true
  else if startsPlain s.inFlow cs then s.plainScalar
  else none

/-- Goes on to the next token and ends the candidates and blocks that it is out of reach of. -/
def settle (s : Scan) : Option Scan := do
  let s ← s.skipGap.dropStale
  return s.unwind s.cursor.column

/-- Takes the tokens that are left, at most `fuel` of them. -/
def run : Nat → Scan → Option (List Token)
  | 0, _ => none
  | fuel + 1, s => do
    let s ← s.settle
    match s.cursor.rest with
    | [] =>
      let s ← (s.unwind (-1)).dropCandidate
      return s.tokens.reverse
    | c :: rest => run fuel (← s.token c rest)

end Scan

/-- The tokens of a text, if it can be cut into tokens; each takes at least one character. -/
def Token.ofText? (text : List Char) : Option (List Token) :=
  if text.all isAllowed then
    let cs := normalize text
    Scan.run (cs.length + 1) (.start cs)
  else none

end ChangeReview.Yaml
