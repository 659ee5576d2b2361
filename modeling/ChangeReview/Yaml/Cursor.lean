/-!
# Places in a document

A YAML document is read from a cursor: the text that is left, and how far into the document it
starts. Columns matter, since indentation is what gives a document its shape; the byte order mark is
the one character that takes up none.

Five characters end a line in a document, one of them in two ways. `normalize` leaves three of them:
the line feed, which stands for most, and the two Unicode separators, which are kept in the text of
scalars.
-/

namespace ChangeReview.Yaml

/-- Whether a character may stand in a document at all. -/
def isAllowed (c : Char) : Bool :=
  let n := c.toNat
  c == '\t' || c == '\n' || c == '\r' || (0x20 ≤ n && n ≤ 0x7E) || n == 0x85 ||
    (0xA0 ≤ n && n ≤ 0xFFFD) || 0x10000 ≤ n

/-- The text with the line ends of one kind made alike. -/
def normalize : List Char → List Char
  | [] => []
  | '\r' :: '\n' :: rest => '\n' :: normalize rest
  | c :: rest => (if c = '\r' ∨ c = '\u0085' then '\n' else c) :: normalize rest

/-- Whether a character ends a line. -/
def isBreak (c : Char) : Bool := c == '\n' || c == '\u2028' || c == '\u2029'

/-- Whether a character is a space or a tab. -/
def isBlank (c : Char) : Bool := c == ' ' || c == '\t'

/-- Whether a line ends here. -/
def atLineEnd : List Char → Bool
  | [] => true
  | c :: _ => isBreak c

/-- Whether a line ends here or a space stands here. -/
def atSpace : List Char → Bool
  | [] => true
  | c :: _ => c == ' ' || isBreak c

/-- Whether a line ends here or a space or a tab stands here. -/
def atBlank : List Char → Bool
  | [] => true
  | c :: _ => isBlank c || isBreak c

/-- Whether three dashes stand here by themselves. -/
def atDocumentStart : List Char → Bool
  | '-' :: '-' :: '-' :: rest => atBlank rest
  | _ => false

/-- Whether three dots stand here by themselves. -/
def atDocumentEnd : List Char → Bool
  | '.' :: '.' :: '.' :: rest => atBlank rest
  | _ => false

/-- Whether a mark between documents stands here. -/
def atSeparator (cs : List Char) : Bool := atDocumentStart cs || atDocumentEnd cs

/-- A place in a document: the text from there on, the characters before it, and its line and
column, counted from zero. -/
structure Cursor where
  rest : List Char
  index : Nat
  line : Nat
  column : Nat
  deriving DecidableEq, Repr

namespace Cursor

/-- The start of a document. -/
def start (cs : List Char) : Cursor := ⟨cs, 0, 0, 0⟩

/-- The place one character on. -/
def next (c : Cursor) : Cursor :=
  match c.rest with
  | [] => c
  | ch :: rest =>
    if isBreak ch then ⟨rest, c.index + 1, c.line + 1, 0⟩
    else ⟨rest, c.index + 1, c.line, if ch = '\uFEFF' then c.column else c.column + 1⟩

/-- The place so many characters on. -/
def advance (c : Cursor) : Nat → Cursor
  | 0 => c
  | n + 1 => c.next.advance n

/-- The place of the first character that is not one of those meant. -/
def skipWhile (c : Cursor) (p : Char → Bool) : Cursor := c.advance (c.rest.takeWhile p).length

end Cursor

end ChangeReview.Yaml
