import ChangeReview.Text.Hex

/-!
# Texts with halves of surrogate pairs

A document can spell half of a surrogate pair without its other half. That half is no character, so
a text that holds one is more than a `String`: it is a row of points, each a character or a half
that stands alone. Such a text is kept as it is and can be compared and put together with others;
only when it is to be written as bytes it turns out that there are none for it (`WideString.text`).
-/

namespace ChangeReview

/-- Half of a surrogate pair, by its code unit. -/
structure Text.Half where
  unit : Nat
  isHalf : 0xD800 ≤ unit ∧ unit ≤ 0xDFFF
  deriving DecidableEq, Repr

/-- What a text is made of. -/
inductive Text.Point where
  | char (c : Char)
  | half (h : Text.Half)
  deriving DecidableEq, Repr

/-- Whether a point is half of a pair. -/
def Text.Point.isHalf : Text.Point → Bool
  | .char _ => false
  | .half _ => true

/-- A text in which halves of pairs may stand. -/
structure WideString where
  points : List Text.Point
  deriving DecidableEq, Repr

/-- Halves that keep a text from being written: the first of them, where it stands, and how many
stand there in a row. -/
structure Text.Unpaired where
  half : Text.Half
  position : Nat
  length : Nat
  deriving DecidableEq, Repr

/-- The wording for a text that cannot be written. -/
def Text.Unpaired.message (e : Unpaired) : String :=
  let points :=
    if e.length = 1 then
      s!"character '\\u{String.ofList (Text.Hex.digits 4 e.half.unit)}' in position {e.position}"
    else s!"characters in position {e.position}-{e.position + e.length - 1}"
  s!"'utf-8' codec can't encode {points}: surrogates not allowed"

namespace WideString

/-- A text of characters alone. -/
def ofString (s : String) : WideString := ⟨s.toList.map .char⟩

instance : Coe String WideString := ⟨ofString⟩

instance : Append WideString := ⟨fun s t => ⟨s.points ++ t.points⟩⟩

/-- The characters of a text from a position on, unless there is half of a pair among them. -/
def charsFrom (position : Nat) : List Text.Point → Except Text.Unpaired (List Char)
  | [] => .ok []
  | .char c :: rest => (c :: ·) <$> charsFrom (position + 1) rest
  | .half h :: rest => .error ⟨h, position, (rest.takeWhile Text.Point.isHalf).length + 1⟩

/-- The text as it is written, unless there is half of a pair in it. -/
def text (s : WideString) : Except Text.Unpaired String :=
  (charsFrom 0 s.points).map String.ofList

end WideString

end ChangeReview
