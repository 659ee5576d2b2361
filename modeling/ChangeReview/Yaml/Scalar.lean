import ChangeReview.Text.Blank
import ChangeReview.Text.Digit
import ChangeReview.Text.Hex
import ChangeReview.Yaml.Tag

/-!
# Scalar values

The value that a text stands for under a tag. A text under a tag it does not suit has no value, even
where the shape of the text alone would not have led to the tag. Of a number with a fraction only
this much is kept: whether it is zero, as the nearest number that a machine can hold.
-/

namespace ChangeReview.Yaml

/-- The value of a scalar. -/
inductive Scalar where
  | null
  | bool (b : Bool)
  | int (n : Int)
  | float (isZero : Bool)
  | text (s : String)
  | bytes (bs : List UInt8)
  | moment
  deriving DecidableEq, Repr

namespace Scalar

/-- A text in lower case, as far as ASCII goes. -/
def lower (cs : List Char) : List Char := cs.map Char.toLower

/-- A sign in front of a text, and the text behind it. -/
def sign : List Char → Int × List Char
  | '-' :: rest => (-1, rest)
  | '+' :: rest => (1, rest)
  | cs => (1, cs)

/-- The value of a digit: a decimal one of any script, or an ASCII letter. -/
def digitValue? (c : Char) : Option Nat := (Text.digitValue? c).or (Text.Hex.digitValue? c)

/-- The number that digits write in a base. In base ten there may be too many of them. -/
def natural? (base : Nat) (cs : List Char) : Option Nat :=
  if cs = [] ∨ base = 10 ∧ Text.maxDigits < cs.length then none
  else
    cs.foldlM (fun acc c => do
      let d ← digitValue? c
      if d < base then some (base * acc + d) else none) 0

/-- The letter that marks a base. -/
def baseMark? : Nat → Option Char
  | 2 => some 'b'
  | 8 => some 'o'
  | 16 => some 'x'
  | _ => none

/-- The integer that a text writes in a base, blanks around it aside; it may have a sign and may
mark the base once more. -/
def integer? (base : Nat) (cs : List Char) : Option Int :=
  let (s, body) := sign (Text.trim cs)
  let body :=
    match body with
    | '0' :: c :: rest => if baseMark? base = some c.toLower then rest else body
    | _ => body
  (natural? base body).map fun n => s * n

/-- The number with these places to base sixty, the leading one first. -/
def sixty (places : List Int) : Int := places.foldl (fun acc p => 60 * acc + p) 0

/-- The integer that a text stands for: in base two, sixteen or eight by the way it starts, to base
sixty with colons, or else in base ten. -/
def int? (text : List Char) : Option Int :=
  match sign (text.filter (· != '_')) with
  | (_, []) => none
  | (s, body) =>
    (match body with
      | ['0'] => some 0
      | '0' :: 'b' :: rest => integer? 2 rest
      | '0' :: 'x' :: rest => integer? 16 rest
      | '0' :: _ => integer? 8 body
      | _ =>
        if body.contains ':' then ((Tag.split body).mapM (integer? 10)).map sixty
        else integer? 10 body).map (s * ·)

/-- Whether `digits`, read as a whole number and moved by `exponent` places, is nearest to zero
among the numbers that a machine can hold: it is if it is at most half the least of the others,
which is two to the power of minus 1074. -/
def vanishes (digits : List Char) (exponent : Int) : Bool :=
  let n := Text.value digits
  let places := (-exponent).toNat
  n = 0 || (exponent < 0 && (digits.length + 400 < places || n * Nat.pow 2 1075 ≤ Nat.pow 10 places))

/-- Whether a text is a number with or without a fraction and an exponent, and if so, whether it is
zero. -/
def decimal? (cs : List Char) : Option Bool :=
  let whole := cs.takeWhile Text.isDigit
  let rest := cs.dropWhile Text.isDigit
  let (fraction, rest) :=
    match rest with
    | '.' :: more => (more.takeWhile Text.isDigit, more.dropWhile Text.isDigit)
    | _ => ([], rest)
  if whole = [] ∧ fraction = [] then none
  else
    match rest with
    | [] => some (vanishes (whole ++ fraction) (-fraction.length))
    | 'e' :: more =>
      let (s, ds) := sign more
      if ds ≠ [] ∧ ds.all Text.isDigit then
        some (vanishes (whole ++ fraction) (s * Text.value ds - fraction.length))
      else none
    | _ => none

/-- Whether a text in lower case is a number, or the name of one that is none, blanks around it
aside, and if so, whether it is zero. -/
def real? (cs : List Char) : Option Bool :=
  let (_, body) := sign (Text.trim cs)
  if body = "inf".toList ∨ body = "infinity".toList ∨ body = "nan".toList then some false
  else decimal? body

/-- Whether a text stands for a number with a fraction, and if so, whether it is zero. -/
def float? (text : List Char) : Option Bool :=
  match sign (lower (text.filter (· != '_'))) with
  | (_, []) => none
  | (_, body) =>
    if body = ".inf".toList ∨ body = ".nan".toList then some false
    else if body.contains ':' then ((Tag.split body).mapM real?).map fun places => places.all id
    else real? body

/-- The truth value that a text stands for, in whatever case. -/
def bool? (text : List Char) : Option Bool :=
  let s := String.ofList (lower text)
  if s ∈ ["yes", "true", "on"] then some true
  else if s ∈ ["no", "false", "off"] then some false
  else none

/-- The number of days of a month. -/
def daysIn (year month : Nat) : Nat :=
  if month = 2 then if year % 4 = 0 ∧ (year % 100 ≠ 0 ∨ year % 400 = 0) then 29 else 28
  else if month ∈ [4, 6, 9, 11] then 30
  else 31

/-- Whether the parts of a moment are those of a real one. -/
def isReal (m : Tag.Moment) : Bool :=
  let year := Text.value m.year
  let month := Text.value m.month
  let day := Text.value m.day
  let validTime :=
    m.time.all fun (h, mi, s) => Text.value h < 24 && Text.value mi < 60 && Text.value s < 60
  let validZone := m.zone.all fun (h, mi) => 60 * Text.value h + Text.value mi < 1440
  1 ≤ year && 1 ≤ month && month ≤ 12 && 1 ≤ day && day ≤ daysIn year month && validTime &&
    validZone

/-- The value of a character that writes six bits. -/
def sextet? (c : Char) : Option Nat :=
  if 'A' ≤ c ∧ c ≤ 'Z' then some (c.toNat - 65)
  else if 'a' ≤ c ∧ c ≤ 'z' then some (c.toNat - 71)
  else if '0' ≤ c ∧ c ≤ '9' then some (c.toNat + 4)
  else if c = '+' then some 62
  else if c = '/' then some 63
  else none

/-- The bytes that characters of six bits write. `place` is how many characters of a group of four
are read, `left` the bits of them that no byte has yet, and `pads` the equals signs right before.
Equals signs that fill up a group end the text; other characters that write no bits are passed
over. A group that is left open is an error. -/
def sextets (place left pads : Nat) : List Char → Option (List UInt8)
  | [] => if place = 0 then some [] else none
  | c :: rest =>
    if c = '=' then
      if 2 ≤ place then
        if 4 ≤ place + pads + 1 then some [] else sextets place left (pads + 1) rest
      else sextets place left pads rest
    else
      match sextet? c with
      | none => sextets place left pads rest
      | some v =>
        match place with
        | 0 => sextets 1 v 0 rest
        | 1 => (sextets 2 (v % 16) 0 rest).map (UInt8.ofNat (4 * left + v / 16) :: ·)
        | 2 => (sextets 3 (v % 4) 0 rest).map (UInt8.ofNat (16 * left + v / 4) :: ·)
        | _ => (sextets 0 0 0 rest).map (UInt8.ofNat (64 * left + v) :: ·)

/-- The value that a text stands for under a tag. -/
def ofText? (tag : Tag) (text : String) : Option Scalar :=
  let cs := text.toList
  match tag with
  | .null => some .null
  | .bool => (bool? cs).map .bool
  | .int => (int? cs).map .int
  | .float => (float? cs).map .float
  | .binary => if cs.all fun c => c.toNat < 128 then (sextets 0 0 0 cs).map .bytes else none
  | .timestamp => if (Tag.moment? (Tag.trimFeed cs)).any isReal then some .moment else none
  | .str => some (.text text)
  | _ => none

/-- Whether a value counts as nothing. -/
def isFalsy : Scalar → Bool
  | .null => true
  | .bool b => !b
  | .int n => n == 0
  | .float isZero => isZero
  | .text s => s.isEmpty
  | .bytes bs => bs.isEmpty
  | .moment => false

end Scalar

end ChangeReview.Yaml
