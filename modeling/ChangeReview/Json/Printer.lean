import ChangeReview.Json.Basic
import ChangeReview.Text.Digit
import ChangeReview.Text.Hex

/-!
# Writing JSON

A value is laid out over lines, two spaces deeper for each array or object around it, and in ASCII
alone: what is not printable ASCII is escaped, a character beyond the basic plane as a surrogate
pair, and half of a pair as what it is.
-/

namespace ChangeReview.Json

/-- A code unit as an escape. -/
def escapeUnit (n : Nat) : List Char := '\\' :: 'u' :: Text.Hex.digits 4 n

/-- One character inside a string. -/
def escapeChar (c : Char) : List Char :=
  if c = '"' then ['\\', '"']
  else if c = '\\' then ['\\', '\\']
  else if c = '\n' then ['\\', 'n']
  else if c = '\r' then ['\\', 'r']
  else if c = '\t' then ['\\', 't']
  else if c = '\x08' then ['\\', 'b']
  else if c = '\x0c' then ['\\', 'f']
  else if 0x20 ≤ c.toNat ∧ c.toNat < 0x7F then [c]
  else if c.toNat < 0x10000 then escapeUnit c.toNat
  else
    let n := c.toNat - 0x10000
    escapeUnit (0xD800 + n / 0x400) ++ escapeUnit (0xDC00 + n % 0x400)

/-- One point inside a string. -/
def escapePoint : Text.Point → List Char
  | .char c => escapeChar c
  | .half h => escapeUnit h.unit

/-- A string between its quotes. -/
def renderString (s : WideString) : List Char :=
  '"' :: s.points.flatMap escapePoint ++ ['"']

/-- The start of a line at a depth. -/
def newline (depth : Nat) : List Char := '\n' :: List.replicate (2 * depth) ' '

mutual

/-- A value at a depth. -/
def renderAt (depth : Nat) : Json → List Char
  | .null => "null".toList
  | .bool true => "true".toList
  | .bool false => "false".toList
  | .int n => Text.decimal n
  | .real literal => literal.toList
  | .str s => renderString s
  | .arr [] => ['[', ']']
  | .arr (v :: vs) =>
    '[' :: newline (depth + 1) ++ renderAt (depth + 1) v ++ renderItems (depth + 1) vs ++
      newline depth ++ [']']
  | .obj [] => ['\x7b', '\x7d']
  | .obj ((key, v) :: ms) =>
    '\x7b' :: newline (depth + 1) ++ renderString key ++ [':', ' '] ++ renderAt (depth + 1) v ++
      renderMembers (depth + 1) ms ++ newline depth ++ ['\x7d']

/-- The items of an array behind the first. -/
def renderItems (depth : Nat) : List Json → List Char
  | [] => []
  | v :: vs => ',' :: newline depth ++ renderAt depth v ++ renderItems depth vs

/-- The members of an object behind the first. -/
def renderMembers (depth : Nat) : List (WideString × Json) → List Char
  | [] => []
  | (key, v) :: ms =>
    ',' :: newline depth ++ renderString key ++ [':', ' '] ++ renderAt depth v ++
      renderMembers depth ms

end

/-- The text of a value. -/
def render (v : Json) : String := String.ofList (renderAt 0 v)

end ChangeReview.Json
