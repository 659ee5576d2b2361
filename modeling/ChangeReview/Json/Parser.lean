import ChangeReview.Json.Basic
import ChangeReview.Text.Digit
import ChangeReview.Text.Hex

/-!
# Reading JSON

A recursive-descent reader over the characters of a document. Each reader takes the text from where
it stands and gives back what it read with the text that is left, or says what is wrong and from
which point on; the place in the document is only worked out at the very end, from the length of the
text left (`SyntaxError.at`). Beyond the standard grammar, `NaN`, `Infinity` and `-Infinity` are
values.

Strings are read in two passes: `units` undoes the escapes and yields code units, `joinUnits` puts
surrogate pairs together.

Two limits keep a document from being read although nothing is wrong with it: an integer may have
too many digits, and arrays and objects may be nested deeper than there is room for. Either ends the
reading where it is met, whatever follows. The room is a parameter, since it depends on where the
reader is called. The fuel of the readers is another matter: `document` computes it from the length
of the text, so that it never runs out.
-/

namespace ChangeReview.Json

/-- What can be wrong with a document. -/
inductive Reason where
  | byteOrderMark
  | expectingValue
  | extraData
  | expectingKey
  | expectingColon
  | expectingComma
  | unterminatedString
  | controlCharacter
  | invalidEscape
  | invalidUnit
  deriving DecidableEq, Repr

/-- The wording of a reason. -/
def Reason.message : Reason → String
  | .byteOrderMark => "Unexpected UTF-8 BOM (decode using utf-8-sig)"
  | .expectingValue => "Expecting value"
  | .extraData => "Extra data"
  | .expectingKey => "Expecting property name enclosed in double quotes"
  | .expectingColon => "Expecting ':' delimiter"
  | .expectingComma => "Expecting ',' delimiter"
  | .unterminatedString => "Unterminated string starting at"
  | .controlCharacter => "Invalid control character at"
  | .invalidEscape => "Invalid \\escape"
  | .invalidUnit => "Invalid \\uXXXX escape"

/-- What can keep a document from being read that is one. -/
inductive Limit where
  /-- An integer has so many digits. -/
  | digits (count : Nat)
  /-- There is no room for an array. -/
  | arrays
  /-- There is no room for an object. -/
  | objects
  deriving DecidableEq, Repr

/-- The wording of a limit. -/
def Limit.message : Limit → String
  | .digits count => Text.limitMessage (some count)
  | .arrays => "maximum recursion depth exceeded while decoding a JSON array from a unicode string"
  | .objects => "maximum recursion depth exceeded while decoding a JSON object from a unicode string"

/-- What ends the reading. -/
inductive Stop where
  /-- Something is wrong with the text, from a point on. -/
  | fault (reason : Reason) (rest : List Char)
  /-- A limit is met. -/
  | limit (l : Limit)

/-- The blanks that may stand between the parts of a document. -/
def isBlank (c : Char) : Bool := c == ' ' || c == '\t' || c == '\n' || c == '\r'

/-- The text from the first character on that is no blank. -/
def skip (cs : List Char) : List Char := cs.dropWhile isBlank

/-- What the character behind a backslash stands for, the unit escape apart. -/
def unescape? (c : Char) : Option Char :=
  match c with
  | '"' => some '"'
  | '\\' => some '\\'
  | '/' => some '/'
  | 'b' => some '\x08'
  | 'f' => some '\x0c'
  | 'n' => some '\n'
  | 'r' => some '\r'
  | 't' => some '\t'
  | _ => none

/-- The code units of a string whose opening quote stands before the text: one for each character
and each escape. `start` is the text from the quote on, which an unterminated string is blamed on. A
unit escape has to be followed by something, if only the closing quote. -/
def units (start : List Char) : List Char → Except Stop (List Nat × List Char)
  | [] => .error (.fault .unterminatedString start)
  | '"' :: rest => .ok ([], rest)
  | ['\\'] => .error (.fault .unterminatedString start)
  | '\\' :: 'u' :: a :: b :: c :: d :: rest =>
    if rest = [] then .error (.fault .invalidUnit ('u' :: a :: b :: c :: d :: rest))
    else
      match Text.Hex.value? [a, b, c, d] with
      | none => .error (.fault .invalidUnit ('u' :: a :: b :: c :: d :: rest))
      | some n => do
        let (ns, left) ← units start rest
        return (n :: ns, left)
  | '\\' :: 'u' :: rest => .error (.fault .invalidUnit ('u' :: rest))
  | '\\' :: c :: rest =>
    match unescape? c with
    | none => .error (.fault .invalidEscape ('\\' :: c :: rest))
    | some e => do
      let (ns, left) ← units start rest
      return (e.toNat :: ns, left)
  | c :: rest =>
    if c.toNat < 0x20 then .error (.fault .controlCharacter (c :: rest))
    else do
      let (ns, left) ← units start rest
      return (c.toNat :: ns, left)

/-- Whether a code unit is the first half of a surrogate pair. -/
def isHigh (n : Nat) : Bool := 0xD800 ≤ n && n ≤ 0xDBFF

/-- Whether a code unit is the second half of a surrogate pair. -/
def isLow (n : Nat) : Bool := 0xDC00 ≤ n && n ≤ 0xDFFF

/-- The point of a code unit that stands alone. -/
def ofUnit (n : Nat) : Text.Point :=
  if h : 0xD800 ≤ n ∧ n ≤ 0xDFFF then .half ⟨n, h⟩ else .char (Char.ofNat n)

/-- The points of code units, the two halves of a surrogate pair put together. -/
def joinUnits : List Nat → List Text.Point
  | [] => []
  | [n] => [ofUnit n]
  | m :: n :: rest =>
    if isHigh m && isLow n then
      .char (Char.ofNat (0x10000 + 0x400 * (m - 0xD800) + (n - 0xDC00))) :: joinUnits rest
    else ofUnit m :: joinUnits (n :: rest)

/-- A string, the text standing behind its opening quote. -/
def string (rest : List Char) : Except Stop (WideString × List Char) := do
  let (ns, left) ← units ('"' :: rest) rest
  return (⟨joinUnits ns⟩, left)

/-- An ASCII digit. -/
def isDigit (c : Char) : Bool := '0' ≤ c && c ≤ '9'

/-- The whole part of a number: a zero alone, or digits of which the first is no zero. -/
def whole? : List Char → Option (List Char × List Char)
  | '0' :: rest => some (['0'], rest)
  | c :: rest => if isDigit c then some ((c :: rest).span isDigit) else none
  | [] => none

/-- The fraction of a number, where there is one: a point and digits. -/
def fraction? : List Char → Option (List Char × List Char)
  | '.' :: rest =>
    match rest.span isDigit with
    | ([], _) => none
    | (ds, left) => some ('.' :: ds, left)
  | _ => none

/-- The sign that may stand in an exponent. -/
def sign : List Char → List Char × List Char
  | '+' :: rest => (['+'], rest)
  | '-' :: rest => (['-'], rest)
  | cs => ([], cs)

/-- The exponent of a number, where there is one: the letter, perhaps a sign, and digits. -/
def exponent? : List Char → Option (List Char × List Char)
  | c :: rest =>
    if c = 'e' ∨ c = 'E' then
      let (s, more) := sign rest
      match more.span isDigit with
      | ([], _) => none
      | (ds, left) => some (c :: s ++ ds, left)
    else none
  | [] => none

/-- An unsigned number: an integer, or the literal of one with a fraction or an exponent. -/
def magnitude? (cs : List Char) : Option ((Nat ⊕ List Char) × List Char) :=
  (whole? cs).map fun (w, afterWhole) =>
    let (f, afterFraction) := (fraction? afterWhole).getD ([], afterWhole)
    let (e, left) := (exponent? afterFraction).getD ([], afterFraction)
    if f = [] ∧ e = [] then (.inl (Text.value w), left) else (.inr (w ++ f ++ e), left)

/-- A number, perhaps with a minus sign. -/
def number? : List Char → Option (Json × List Char)
  | '-' :: rest =>
    (magnitude? rest).map fun
      | (.inl n, left) => (.int (-n), left)
      | (.inr literal, left) => (.real (String.ofList ('-' :: literal)), left)
  | cs =>
    (magnitude? cs).map fun
      | (.inl n, left) => (.int n, left)
      | (.inr literal, left) => (.real (String.ofList literal), left)

/-- The values that are written by a name. -/
def names : List (List Char × Json) :=
  [("null".toList, .null), ("true".toList, .bool true), ("false".toList, .bool false),
    ("NaN".toList, .real "NaN"), ("Infinity".toList, .real "Infinity"),
    ("-Infinity".toList, .real "-Infinity")]

/-- The limit that a value without parts is beyond, if any. -/
def limit? : Json → Option Limit
  | .int n => if Text.isLong n then some (.digits (Text.digits n.natAbs).length) else none
  | _ => none

/-- A value without parts: one that is written by a name, or a number. -/
def atom (cs : List Char) : Except Stop (Json × List Char) :=
  match names.findSome? fun (word, v) => (word.isPrefixOf? cs).map (v, ·) with
  | some found => .ok found
  | none =>
    match number? cs with
    | some (v, left) =>
      match v.limit? with
      | none => .ok (v, left)
      | some l => .error (.limit l)
    | none => .error (.fault .expectingValue cs)

mutual

/-- A value, of no more than `fuel` steps, where there is room for so many arrays and objects one in
the other. -/
def value : Nat → Nat → List Char → Except Stop (Json × List Char)
  | 0, _, cs => .error (.fault .expectingValue cs)
  | _ + 1, _, '"' :: rest => do
    let (s, left) ← string rest
    return (.str s, left)
  | _ + 1, 0, '[' :: _ => .error (.limit .arrays)
  | fuel + 1, room + 1, '[' :: rest =>
    match skip rest with
    | ']' :: left => .ok (.arr [], left)
    | cs => do
      let (vs, left) ← items fuel room cs
      return (.arr vs, left)
  | _ + 1, 0, '\x7b' :: _ => .error (.limit .objects)
  | fuel + 1, room + 1, '\x7b' :: rest =>
    match skip rest with
    | '\x7d' :: left => .ok (.obj [], left)
    | cs => do
      let (ms, left) ← members fuel room cs
      return (.obj ms, left)
  | _ + 1, _, cs => atom cs

/-- The items of an array from the first of them on, and the closing bracket. -/
def items : Nat → Nat → List Char → Except Stop (List Json × List Char)
  | 0, _, cs => .error (.fault .expectingValue cs)
  | fuel + 1, room, cs => do
    let (v, left) ← value fuel room cs
    match skip left with
    | ']' :: rest => return ([v], rest)
    | ',' :: rest => do
      let (vs, left) ← items fuel room (skip rest)
      return (v :: vs, left)
    | other => .error (.fault .expectingComma other)

/-- The members of an object from the first of them on, and the closing brace. -/
def members : Nat → Nat → List Char → Except Stop (List (WideString × Json) × List Char)
  | 0, _, cs => .error (.fault .expectingKey cs)
  | fuel + 1, room, '"' :: rest => do
    let (key, afterKey) ← string rest
    match skip afterKey with
    | ':' :: afterColon => do
      let (v, left) ← value fuel room (skip afterColon)
      match skip left with
      | '\x7d' :: rest => return ([(key, v)], rest)
      | ',' :: rest => do
        let (ms, left) ← members fuel room (skip rest)
        return ((key, v) :: ms, left)
      | other => .error (.fault .expectingComma other)
    | other => .error (.fault .expectingColon other)
  | _ + 1, _, cs => .error (.fault .expectingKey cs)

end

/-- A document: one value, with blanks around it. -/
def document (room : Nat) (cs : List Char) : Except Stop Json :=
  if cs.head? = some '\uFEFF' then .error (.fault .byteOrderMark cs)
  else do
    let (v, left) ← value (2 * cs.length + 2) room (skip cs)
    match skip left with
    | [] => return v
    | rest => .error (.fault .extraData rest)

/-- What is wrong with a document, and where: characters before the place, its line and its column,
the latter two counted from one. -/
structure SyntaxError where
  reason : Reason
  position : Nat
  line : Nat
  column : Nat
  deriving DecidableEq, Repr

/-- What is wrong with a document from the text `rest` on that is left of it. -/
def SyntaxError.locate (whole : List Char) (reason : Reason) (rest : List Char) : SyntaxError :=
  let before := whole.take (whole.length - rest.length)
  ⟨reason, before.length, before.count '\n' + 1,
    (before.reverse.takeWhile (· != '\n')).length + 1⟩

/-- The wording of what is wrong and where. -/
def SyntaxError.message (e : SyntaxError) : String :=
  s!"{e.reason.message}: line {e.line} column {e.column} (char {e.position})"

/-- Why a text cannot be read as a document. -/
inductive ParseError where
  /-- It is none. -/
  | malformed (e : SyntaxError)
  /-- A limit was met before anything was found to be wrong. -/
  | limit (l : Limit)
  deriving DecidableEq, Repr

/-- What an end of the reading says of the whole text. -/
def Stop.error (whole : List Char) : Stop → ParseError
  | .fault reason rest => .malformed (.locate whole reason rest)
  | .limit l => .limit l

/-- The value that a document says, read with room for so many arrays and objects one in the other.
-/
def parse (room : Nat) (s : String) : Except ParseError Json :=
  (document room s.toList).mapError (Stop.error s.toList)

end ChangeReview.Json
