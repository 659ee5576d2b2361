import ChangeReview.Text.Hex
import ChangeReview.Text.Utf8
import ChangeReview.Yaml.Cursor
import ChangeReview.Yaml.Token

/-!
# Names, tags and directives

The tokens that are made of words: the names of anchors, the handles and addresses that tags are
made of, and directives. Each reader takes the text from where it stands, and gives back what it
read and how many characters that takes.
-/

namespace ChangeReview.Yaml.Name

/-- Whether a character can be part of a name. -/
def isWord (c : Char) : Bool := c.isAlphanum || c == '-' || c == '_'

/-- The name of an anchor; what follows it may not make it longer. -/
def anchor? (cs : List Char) : Option (String × Nat) :=
  let name := cs.takeWhile isWord
  let rest := cs.drop name.length
  if name = [] then none
  else if atBlank rest ||
      (rest.head?.any fun c => c ∈ ['?', ':', ',', ']', '\x7d', '%', '@', '\x60'])
  then some (String.ofList name, name.length)
  else none

/-- A handle: one exclamation mark, or two with a name between them. -/
def handle? (cs : List Char) : Option (String × Nat) :=
  match cs with
  | '!' :: rest =>
    if rest.head? = some ' ' then some ("!", 1)
    else
      let name := rest.takeWhile isWord
      match rest.drop name.length with
      | '!' :: _ => some (String.ofList ('!' :: name ++ ['!']), name.length + 2)
      | _ => none
  | _ => none

/-- Whether a character can be part of an address as it is. -/
def inAddress (c : Char) : Bool :=
  c.isAlphanum || c ∈ "-;/?:@&=+$,_.!~*'()[]".toList

/-- The bytes that escapes at the start of a text write, one escape after the other. -/
def escapedBytes : List Char → Option (List UInt8)
  | '%' :: a :: b :: rest => do
    let n ← Text.Hex.value? [a, b]
    let bs ← escapedBytes rest
    return UInt8.ofNat n :: bs
  | '%' :: _ => none
  | _ => some []

/-- An address from here on, and how many characters it takes. Escapes that follow one another write
one text. -/
def addressFrom : Nat → List Char → Option (List Char × Nat)
  | _, [] => some ([], 0)
  | skip + 1, _ :: rest => (addressFrom skip rest).map fun (cs, n) => (cs, n + 1)
  | 0, c :: rest =>
    if c = '%' then do
      let bytes ← escapedBytes (c :: rest)
      let cs ← (Text.Utf8.decode bytes).toOption
      let (more, n) ← addressFrom (3 * bytes.length - 1) rest
      return (cs ++ more, n + 1)
    else if inAddress c then (addressFrom 0 rest).map fun (cs, n) => (c :: cs, n + 1)
    else some ([], 0)

/-- An address, which may not be empty. -/
def address? (cs : List Char) : Option (String × Nat) :=
  match addressFrom 0 cs with
  | some (text, n) => if n = 0 then none else some (String.ofList text, n)
  | none => none

/-- Whether an exclamation mark stands in the text before a space. -/
def hasMark (cs : List Char) : Bool := (cs.takeWhile fun c => c != ' ' && !isBreak c).contains '!'

/-- A tag from its exclamation mark on: an address in full, a lone mark, or a handle and the rest of
an address. -/
def tag? (cs : List Char) : Option (Token × Nat) := do
  let rest := cs.drop 1
  let (token, n) ←
    match rest with
    | '<' :: more => do
      let (address, n) ← address? more
      if more.drop n |>.head?.any (· == '>') then some (Token.tag none address, n + 3) else none
    | _ =>
      if atBlank rest then some (Token.tag none "!", 1)
      else do
        let (handle, m) ← if hasMark rest then handle? cs else some ("!", 1)
        let (address, n) ← address? (cs.drop m)
        return (Token.tag (some handle) address, m + n)
  if atSpace (cs.drop n) then some (token, n) else none

/-- The number of spaces at the start of a text. -/
def spaces (cs : List Char) : Nat := (cs.takeWhile (· == ' ')).length

/-- A number at the start of a text, and how many digits it takes. -/
def number? (cs : List Char) : Option (Nat × Nat) :=
  match cs.takeWhile Char.isDigit with
  | [] => none
  | ds => some (ds.foldl (fun acc c => 10 * acc + (c.toNat - 48)) 0, ds.length)

/-- The two numbers of a version. -/
def version? (cs : List Char) : Option (Directive × Nat) := do
  let i := spaces cs
  let (major, m) ← number? (cs.drop i)
  if (cs.drop (i + m)).head? = some '.' then
    let (_, n) ← number? (cs.drop (i + m + 1))
    let taken := i + m + 1 + n
    if atSpace (cs.drop taken) then some (.version major, taken) else none
  else none

/-- A handle and what it stands for. -/
def meaning? (cs : List Char) : Option (Directive × Nat) := do
  let i := spaces cs
  let (handle, m) ← handle? (cs.drop i)
  if (cs.drop (i + m)).head? = some ' ' then
    let j := i + m + spaces (cs.drop (i + m))
    let (address, n) ← address? (cs.drop j)
    if atSpace (cs.drop (j + n)) then some (.handle handle address, j + n) else none
  else none

/-- A directive from its percent sign on, up to the end of the line. -/
def directive? (cs : List Char) : Option (Directive × Nat) := do
  let name := (cs.drop 1).takeWhile isWord
  let m := name.length + 1
  let rest := cs.drop m
  if name = [] ∨ !atSpace rest then none
  else
    let (d, n) ←
      if name = "YAML".toList then version? rest
      else if name = "TAG".toList then meaning? rest
      else some (.other, (rest.takeWhile (!isBreak ·)).length)
    let left := rest.drop n
    let i := spaces left
    let comment :=
      if (left.drop i).head? = some '#' then ((left.drop i).takeWhile (!isBreak ·)).length else 0
    if atLineEnd (left.drop (i + comment)) then some (d, m + n + i + comment) else none

end ChangeReview.Yaml.Name
