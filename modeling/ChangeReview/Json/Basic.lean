import ChangeReview.Text.Wide

/-!
# JSON values

What a JSON document says. Integers are kept in full; of a number with a fraction or an exponent,
and of the three names for what is no number, only the literal is kept, since nothing here computes
with them. An object keeps its members in the order they are written, repeated keys included;
looking a key up finds its last member. A text may hold halves of surrogate pairs, since a document
can spell them.
-/

namespace ChangeReview

/-- A JSON value. -/
inductive Json where
  | null
  | bool (b : Bool)
  | int (n : Int)
  | real (literal : String)
  | str (s : WideString)
  | arr (items : List Json)
  | obj (members : List (WideString × Json))
  deriving Inhabited, BEq, Repr

namespace Json

/-- The value of the last member with a given key. -/
def lookup (key : String) (members : List (WideString × Json)) : Option Json :=
  (members.reverse.find? fun m => m.1 == .ofString key).map (·.2)

/-- The value under a key of an object; none elsewhere. -/
def field? (key : String) : Json → Option Json
  | .obj members => lookup key members
  | _ => none

/-- The value at the end of a way of keys. -/
def at? (v : Json) : List String → Option Json
  | [] => some v
  | key :: keys => (v.field? key).bind (·.at? keys)

/-- The text that a value is, if it is one. -/
def str? : Json → Option WideString
  | .str s => some s
  | _ => none

/-- The integer that a value stands for; the truth values stand for one and zero. -/
def int? : Json → Option Int
  | .int n => some n
  | .bool b => some (if b then 1 else 0)
  | _ => none

end Json

end ChangeReview
