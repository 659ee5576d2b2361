import ChangeReview.Text.Hex
import ChangeReview.Yaml.Cursor

/-!
# Quoted scalars

A text between quotes goes on over line ends: blanks around a line end vanish, the line end becomes
a space, and each further one is kept. Between single quotes, a quote is written twice and nothing
else is special. Between double quotes a backslash escapes; an escaped line end vanishes altogether.
A mark between documents may not stand at the start of a line.
-/

namespace ChangeReview.Yaml.Quoted

/-- What stands before the next character and was not taken in yet. -/
inductive Gap where
  | none
  /-- Blanks within a line. -/
  | blanks (cs : List Char)
  /-- Line ends. -/
  | lines (first : Char) (more : List Char)
  /-- An escaped line end, and the line ends behind it. -/
  | escaped (more : List Char)

/-- The text that a gap comes to. -/
def Gap.text : Gap → List Char
  | .none => []
  | .blanks cs => cs
  | .lines first more =>
    if first ≠ '\n' then first :: more else if more = [] then [' '] else more
  | .escaped more => more

/-- The gap with one more blank. -/
def Gap.blank (c : Char) : Gap → Gap
  | .none => .blanks [c]
  | .blanks cs => .blanks (cs ++ [c])
  | gap => gap

/-- The gap with one more line end. -/
def Gap.line (c : Char) : Gap → Gap
  | .none | .blanks _ => .lines c []
  | .lines first more => .lines first (more ++ [c])
  | .escaped more => .escaped (more ++ [c])

/-- What a single character behind a backslash stands for. -/
def escape? (c : Char) : Option Char :=
  match c with
  | '0' => some '\x00'
  | 'a' => some '\x07'
  | 'b' => some '\x08'
  | 't' => some '\t'
  | '\t' => some '\t'
  | 'n' => some '\n'
  | 'v' => some '\x0b'
  | 'f' => some '\x0c'
  | 'r' => some '\r'
  | 'e' => some '\x1b'
  | ' ' => some ' '
  | '"' => some '"'
  | '\\' => some '\\'
  | '/' => some '/'
  | 'N' => some '\u0085'
  | '_' => some '\u00a0'
  | 'L' => some '\u2028'
  | 'P' => some '\u2029'
  | _ => none

/-- How many digits write a code point behind a letter. -/
def width? (c : Char) : Option Nat :=
  match c with
  | 'x' => some 2
  | 'u' => some 4
  | 'U' => some 8
  | _ => none

/-- The character that `width` digits write at the start of a text. Code points that no character
has are refused. -/
def codePoint? (width : Nat) (cs : List Char) : Option Char := do
  let ds := cs.take width
  if ds.length < width then none
  else
    let n ← Text.Hex.value? ds
    if n < 0xD800 ∨ (0xDFFF < n ∧ n < 0x110000) then some (Char.ofNat n) else none

/-- What the text behind a backslash starts with: a character, and how many characters of the text
write it. -/
def escaped? : List Char → Option (Char × Nat)
  | [] => none
  | c :: rest =>
    match width? c with
    | some w => (codePoint? w rest).map (·, w + 1)
    | none => (escape? c).map (·, 1)

/-- The text between quotes from a gap on, the text standing behind the opening quote, and how many
characters it takes, closing quote included. The first `skip` characters belong to what is read
already. -/
def read (double : Bool) : Nat → Gap → List Char → Option (List Char × Nat)
  | _, _, [] => none
  | skip + 1, gap, _ :: rest => (read double skip gap rest).map fun (cs, n) => (cs, n + 1)
  | 0, gap, c :: rest =>
    let take (cs : List Char) (skip : Nat) : Option (List Char × Nat) :=
      (read double skip .none rest).map fun (more, n) => (gap.text ++ cs ++ more, n + 1)
    let goOn (gap : Gap) (skip : Nat) : Option (List Char × Nat) :=
      (read double skip gap rest).map fun (more, n) => (more, n + 1)
    if isBlank c then goOn (gap.blank c) 0
    else if isBreak c then if atSeparator rest then none else goOn (gap.line c) 0
    else if !double ∧ c = '\'' then
      if rest.head? = some '\'' then take ['\''] 1 else some (gap.text, 1)
    else if double ∧ c = '"' then some (gap.text, 1)
    else if double ∧ c = '\\' then
      if rest.head?.any isBreak then
        if atSeparator (rest.drop 1) then none
        else
          (read double 1 (.escaped []) rest).map fun (more, n) => (gap.text ++ more, n + 1)
      else
        match escaped? rest with
        | some (e, n) => take [e] n
        | none => none
    else take [c] 0

end ChangeReview.Yaml.Quoted
