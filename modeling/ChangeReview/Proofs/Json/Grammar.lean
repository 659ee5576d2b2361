import ChangeReview.Json.Parser

/-!
# The grammar of documents

Which texts are documents, and what they say, without a word on how they are
read. A relation for each kind of part says that a text spells a value of
this kind; the text is the whole part, nothing is left behind it.

The grammar is the standard one with three more names for values, `NaN`,
`Infinity` and `-Infinity`. Strings are the only part where a text and what
it says are not read off each other at once: between the quotes stand
characters and escapes, each good for one code unit (`Json.Quoted`), and of
the code units the two halves of a surrogate pair make one character
(`Json.Joins`). A half that stands alone is no character, and is kept as the
half that it is, so that every string says something.

The limits of the reader are no part of the grammar: a document may have any
number of digits and any depth. Which limit a value is beyond, and which one
first in the order of its text, is said of values (`Json.excess?`).
-/

namespace ChangeReview.Json

/-! ## Strings -/

/-- The text between two quotes spells these code units: those of the
characters that stand for themselves, of the short escapes, and of the unit
escapes with their four hexadecimal digits. -/
inductive Quoted : List Char → List Nat → Prop
  | nil : Quoted [] []
  | plain {c : Char} {t : List Char} {ns : List Nat} (hcontrol : 0x20 ≤ c.toNat)
      (hquote : c ≠ '"') (hescape : c ≠ '\\') : Quoted t ns → Quoted (c :: t) (c.toNat :: ns)
  | escape {letter c : Char} {t : List Char} {ns : List Nat} (h : unescape? letter = some c) :
      Quoted t ns → Quoted ('\\' :: letter :: t) (c.toNat :: ns)
  | unit {a b c d : Char} {n : Nat} {t : List Char} {ns : List Nat}
      (h : Text.Hex.value? [a, b, c, d] = some n) :
      Quoted t ns → Quoted ('\\' :: 'u' :: a :: b :: c :: d :: t) (n :: ns)

/-- Code units make these points: each half of a pair that has its other half
makes a character with it, each half that has not stands alone, and every other
unit is the code point of a character. -/
inductive Joins : List Nat → List Text.Point → Prop
  | nil : Joins [] []
  | unit {n : Nat} {ns : List Nat} {ps : List Text.Point} (hhigh : isHigh n = false)
      (hlow : isLow n = false) : Joins ns ps → Joins (n :: ns) (.char (Char.ofNat n) :: ps)
  | pair {m n : Nat} {ns : List Nat} {ps : List Text.Point} (hhigh : isHigh m = true)
      (hlow : isLow n = true) : Joins ns ps →
      Joins (m :: n :: ns) (.char (Char.ofNat (0x10000 + 0x400 * (m - 0xD800) + (n - 0xDC00))) :: ps)
  | half {h : Text.Half} {ns : List Nat} {ps : List Text.Point}
      (alone : isHigh h.unit = true → ∀ n ∈ ns.head?, isLow n = false) :
      Joins ns ps → Joins (h.unit :: ns) (.half h :: ps)

/-- A string between its quotes. -/
inductive Literal : WideString → List Char → Prop
  | mk {t : List Char} {ns : List Nat} {ps : List Text.Point} : Quoted t ns → Joins ns ps →
      Literal ⟨ps⟩ ('"' :: t ++ ['"'])

/-! ## Numbers -/

/-- A run of digits, of which there is at least one. -/
def IsDigits (ds : List Char) : Prop := ds ≠ [] ∧ ∀ d ∈ ds, isDigit d = true

/-- The whole part of a number: a zero alone, or digits that do not start
with one. -/
inductive Whole : List Char → Prop
  | zero : Whole ['0']
  | digits {ds : List Char} : IsDigits ds → ds.head? ≠ some '0' → Whole ds

/-- The fraction of a number, if any: a point and digits. -/
inductive Fraction : List Char → Prop
  | none : Fraction []
  | some {ds : List Char} : IsDigits ds → Fraction ('.' :: ds)

/-- The exponent of a number, if any: a letter, a sign if any, and digits. -/
inductive Exponent : List Char → Prop
  | none : Exponent []
  | some {letter : Char} {signed ds : List Char} : letter = 'e' ∨ letter = 'E' →
      signed ∈ [[], ['+'], ['-']] → IsDigits ds → Exponent (letter :: signed ++ ds)

/-- A number: an integer, or the literal of a number with a fraction or an
exponent. -/
inductive Number : Json → List Char → Prop
  | nat {w : List Char} : Whole w → Number (.int (Text.value w)) w
  | neg {w : List Char} : Whole w → Number (.int (-Text.value w)) ('-' :: w)
  | real {minus w f e : List Char} : minus ∈ [[], ['-']] → Whole w → Fraction f → Exponent e →
      f ++ e ≠ [] → Number (.real (String.ofList (minus ++ w ++ f ++ e))) (minus ++ w ++ f ++ e)

/-! ## Values -/

/-- A text of blanks alone. -/
def Blanks (b : List Char) : Prop := ∀ c ∈ b, isBlank c = true

mutual

/-- A value, from its first character to its last. -/
inductive Value : Json → List Char → Prop
  | name {word : List Char} {v : Json} : (word, v) ∈ names → Value v word
  | number {v : Json} {t : List Char} : Number v t → Value v t
  | str {s : WideString} {t : List Char} : Literal s t → Value (.str s) t
  | emptyArr {b : List Char} : Blanks b → Value (.arr []) ('[' :: b ++ [']'])
  | arr {vs : List Json} {t : List Char} : Items vs t → Value (.arr vs) ('[' :: t ++ [']'])
  | emptyObj {b : List Char} : Blanks b → Value (.obj []) ('\x7b' :: b ++ ['\x7d'])
  | obj {ms : List (WideString × Json)} {t : List Char} : Members ms t →
      Value (.obj ms) ('\x7b' :: t ++ ['\x7d'])

/-- A value with blanks around it. -/
inductive Element : Json → List Char → Prop
  | mk {v : Json} {before t behind : List Char} : Blanks before → Value v t → Blanks behind →
      Element v (before ++ t ++ behind)

/-- The items of an array, of which there is at least one, with commas
between them. -/
inductive Items : List Json → List Char → Prop
  | last {v : Json} {t : List Char} : Element v t → Items [v] t
  | cons {v : Json} {vs : List Json} {t u : List Char} : Element v t → Items vs u →
      Items (v :: vs) (t ++ ',' :: u)

/-- A member of an object: its key, with blanks around it, a colon, and its
value. -/
inductive Member : WideString × Json → List Char → Prop
  | mk {key : WideString} {v : Json} {before k behind t : List Char} : Blanks before →
      Literal key k → Blanks behind → Element v t →
      Member (key, v) (before ++ k ++ behind ++ ':' :: t)

/-- The members of an object, of which there is at least one, with commas
between them. -/
inductive Members : List (WideString × Json) → List Char → Prop
  | last {m : WideString × Json} {t : List Char} : Member m t → Members [m] t
  | cons {m : WideString × Json} {ms : List (WideString × Json)} {t u : List Char} : Member m t →
      Members ms u → Members (m :: ms) (t ++ ',' :: u)

end

/-- A document: one value with blanks around it, and nothing else. -/
def Document (v : Json) (t : List Char) : Prop := Element v t

/-! ## Limits -/

mutual

/-- The first limit that a value is beyond, in the order of its text, where
there is room for so many arrays and objects one in the other. -/
def excess? (room : Nat) : Json → Option Limit
  | .arr vs =>
    match room with
    | 0 => some .arrays
    | room + 1 => itemsExcess? room vs
  | .obj ms =>
    match room with
    | 0 => some .objects
    | room + 1 => membersExcess? room ms
  | v => v.limit?

/-- The first limit that one of some values is beyond. -/
def itemsExcess? (room : Nat) : List Json → Option Limit
  | [] => none
  | v :: vs => (excess? room v).or (itemsExcess? room vs)

/-- The first limit that the value of one of some members is beyond. -/
def membersExcess? (room : Nat) : List (WideString × Json) → Option Limit
  | [] => none
  | (_, v) :: ms => (excess? room v).or (membersExcess? room ms)

end

/-! ## How parts begin -/

theorem Whole.exists_digit {w : List Char} (h : Whole w) :
    ∃ d ds, w = d :: ds ∧ isDigit d = true := by
  cases h with
  | zero => exact ⟨'0', [], rfl, rfl⟩
  | digits hds _ =>
    obtain ⟨hne, hall⟩ := hds
    cases w with
    | nil => exact absurd rfl hne
    | cons d ds => exact ⟨d, ds, rfl, hall d (.head _)⟩

end ChangeReview.Json
