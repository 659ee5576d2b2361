import ChangeReview.Text.Hex
import ChangeReview.Text.Printable

/-!
# Quoted names

A name in a message stands between quotes, so that blanks and odd characters in it can be seen:
single quotes, or double quotes when the name holds a single quote and no double one. The quote in
use and the backslash are escaped, and a character that would not show is written by its code
point.
-/

namespace ChangeReview.Text

/-- The quote a name is put between. -/
def quoteFor (cs : List Char) : Char :=
  if cs.contains '\'' && !cs.contains '"' then '"' else '\''

/-- One character inside the quotes `q`. -/
def escapeIn (q c : Char) : List Char :=
  if c = q ∨ c = '\\' then ['\\', c]
  else if c = '\t' then ['\\', 't']
  else if c = '\n' then ['\\', 'n']
  else if c = '\r' then ['\\', 'r']
  else if isPrintable c then [c]
  else if c.toNat < 0x100 then '\\' :: 'x' :: Hex.digits 2 c.toNat
  else if c.toNat < 0x10000 then '\\' :: 'u' :: Hex.digits 4 c.toNat
  else '\\' :: 'U' :: Hex.digits 8 c.toNat

/-- A name between quotes. -/
def quoted (s : String) : String :=
  let q := quoteFor s.toList
  String.ofList (q :: s.toList.flatMap (escapeIn q) ++ [q])

end ChangeReview.Text
