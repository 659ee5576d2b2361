/-!
# Tags

Every node of a document has a tag that says what kind of value it stands for. A scalar that is
written plainly and without a tag gets one from its shape: `Tag.ofPlain` tells truth values,
numbers, moments, the null value and two marks from texts. The shapes are those of YAML 1.1, where a
number may be split by underscores, may be written to base sixty with colons, and where a fraction
has to have a point.
-/

namespace ChangeReview.Yaml

/-- The kind of value a node stands for. -/
inductive Tag where
  | null
  | bool
  | int
  | float
  | binary
  | timestamp
  | str
  | seq
  | omap
  | pairs
  | map
  | set
  /-- The mark of a key whose value is merged into the mapping. -/
  | merge
  /-- The mark of a key whose value is what the mapping stands for where a scalar is wanted. -/
  | value
  /-- A kind that is not known. -/
  | unknown
  deriving DecidableEq, Repr

namespace Tag

/-- What the addresses of the known kinds start with. -/
def base : String := "tag:yaml.org,2002:"

/-- The kinds that can be asked for, by name. -/
def names : List (String × Tag) :=
  [("null", null), ("bool", bool), ("int", int), ("float", float), ("binary", binary),
    ("timestamp", timestamp), ("str", str), ("seq", seq), ("omap", omap), ("pairs", pairs),
    ("map", map), ("set", set), ("merge", merge), ("value", value)]

/-- The kind that an address names. -/
def ofAddress (address : String) : Tag :=
  ((names.find? fun n => base ++ n.1 == address).map (·.2)).getD unknown

/-- An ASCII digit. -/
def isDigit (c : Char) : Bool := '0' ≤ c && c ≤ '9'

/-- A digit, or an underscore between digits. -/
def isSpacedDigit (c : Char) : Bool := isDigit c || c == '_'

/-- Digits of which the first satisfies `first`, with underscores between them. -/
def isSpaced (first : Char → Bool) : List Char → Bool
  | c :: rest => first c && rest.all isSpacedDigit
  | [] => false

/-- The text without the sign in front of it. -/
def unsigned : List Char → List Char
  | '+' :: rest => rest
  | '-' :: rest => rest
  | cs => cs

/-- The pieces of a text between the colons in it. -/
def split : List Char → List (List Char)
  | [] => [[]]
  | c :: rest =>
    if c = ':' then [] :: split rest
    else
      match split rest with
      | [] => [[c]]
      | piece :: more => (c :: piece) :: more

/-- Whether a text is a place of a number to base sixty. -/
def isSixtieth : List Char → Bool
  | [a] => isDigit a
  | [a, b] => '0' ≤ a && a ≤ '5' && isDigit b
  | _ => false

/-- Whether a text is a number to base sixty, of two places or more, of which the leading one starts
as `first` says. -/
def isSexagesimal (first : Char → Bool) (cs : List Char) : Bool :=
  match split cs with
  | leading :: place :: places => isSpaced first leading && (place :: places).all isSixtieth
  | _ => false

/-- Whether a text is an exponent, or nothing: its sign has to be written. -/
def isExponent : List Char → Bool
  | [] => true
  | e :: s :: d :: rest =>
    (e == 'e' || e == 'E') && (s == '+' || s == '-') && (d :: rest).all isDigit
  | _ => false

/-- Whether a text has the shape of an integer. -/
def isInt (cs : List Char) : Bool :=
  let isNonzero (c : Char) : Bool := isDigit c && c != '0'
  let body := unsigned cs
  (match body with
    | '0' :: 'b' :: d :: rest => (d :: rest).all fun c => c == '0' || c == '1' || c == '_'
    | '0' :: 'x' :: d :: rest =>
      (d :: rest).all fun c => isSpacedDigit c || ('a' ≤ c && c ≤ 'f') || ('A' ≤ c && c ≤ 'F')
    | '0' :: rest => rest.all fun c => ('0' ≤ c && c ≤ '7') || c == '_'
    | _ => isSpaced isNonzero body) ||
    isSexagesimal isNonzero body

/-- Whether a text has the shape of a number with a fraction, or of one of the three that are no
number. -/
def isFloat (cs : List Char) : Bool :=
  let body := unsigned cs
  let whole := body.takeWhile (· != '.')
  body ∈ [".inf".toList, ".Inf".toList, ".INF".toList] ||
    cs ∈ [".nan".toList, ".NaN".toList, ".NAN".toList] ||
    (match body.dropWhile (· != '.') with
      | [] => false
      | _ :: fraction =>
        (isSpaced isDigit whole && isExponent (fraction.dropWhile isSpacedDigit)) ||
          (isSexagesimal isDigit whole && fraction.all isSpacedDigit)) ||
    (match cs with
      | '.' :: d :: rest => isDigit d && isExponent (rest.dropWhile isSpacedDigit)
      | _ => false)

/-- The parts of a moment: a date, and perhaps a time with a fraction and a zone. -/
structure Moment where
  year : List Char
  month : List Char
  day : List Char
  time : Option (List Char × List Char × List Char)
  /-- Hours and minutes from the zone of the meridian, where they are given. -/
  zone : Option (List Char × List Char)
  deriving DecidableEq, Repr

/-- So many digits at the start of a text, `least` to `most`, and the text behind them. -/
def digits? (least most : Nat) (cs : List Char) : Option (List Char × List Char) :=
  let ds := (cs.take most).takeWhile isDigit
  if least ≤ ds.length then some (ds, cs.drop ds.length) else none

/-- The text behind a character. -/
def behind? (c : Char) : List Char → Option (List Char)
  | d :: rest => if d = c then some rest else none
  | [] => none

/-- A zone at the end of a moment; the letter says that it is the meridian's. -/
def zone? (cs : List Char) : Option (Option (List Char × List Char)) :=
  match cs with
  | [] => some none
  | _ =>
    match cs.dropWhile fun c => c == ' ' || c == '\t' with
    | ['Z'] => some none
    | s :: rest =>
      if s = '+' ∨ s = '-' then do
        let (hour, rest) ← digits? 1 2 rest
        match rest with
        | [] => return some (hour, ['0'])
        | ':' :: more => do
          let (minute, rest) ← digits? 2 2 more
          if rest = [] then return some (hour, minute) else none
        | _ => none
      else none
    | [] => none

/-- The time of a moment, from what parts it from the date on. -/
def time? (cs : List Char) :
    Option ((List Char × List Char × List Char) × Option (List Char × List Char)) := do
  let rest ←
    match cs with
    | [] => none
    | c :: rest =>
      if c = 'T' ∨ c = 't' then some rest
      else if c = ' ' ∨ c = '\t' then some (rest.dropWhile fun c => c == ' ' || c == '\t')
      else none
  let (hour, rest) ← digits? 1 2 rest
  let (minute, rest) ← digits? 2 2 (← behind? ':' rest)
  let (second, rest) ← digits? 2 2 (← behind? ':' rest)
  let rest := ((behind? '.' rest).map (·.dropWhile isDigit)).getD rest
  return ((hour, minute, second), ← zone? rest)

/-- The parts of a moment. -/
def moment? (cs : List Char) : Option Moment := do
  let (year, rest) ← digits? 4 4 cs
  let (month, rest) ← digits? 1 2 (← behind? '-' rest)
  let (day, rest) ← digits? 1 2 (← behind? '-' rest)
  match rest with
  | [] => return ⟨year, month, day, none, none⟩
  | _ =>
    let (time, zone) ← time? rest
    return ⟨year, month, day, some time, zone⟩

/-- Whether a text has the shape of a moment; a date alone has two digits for month and day. -/
def isTimestamp (cs : List Char) : Bool :=
  match moment? cs with
  | some m => m.time.isSome || (m.month.length == 2 && m.day.length == 2)
  | none => false

/-- The truth values, as they can be written. -/
def truthNames : List String :=
  ["yes", "Yes", "YES", "no", "No", "NO", "true", "True", "TRUE", "false", "False", "FALSE",
    "on", "On", "ON", "off", "Off", "OFF"]

/-- The null value, as it can be written. -/
def nullNames : List String := ["~", "null", "Null", "NULL"]

/-- A text without the line feed it may end in, which a shape takes no note of. -/
def trimFeed (cs : List Char) : List Char :=
  if cs.getLast? = some '\n' then cs.dropLast else cs

/-- The kind that a plain text has by its shape. -/
def ofPlain (text : String) : Tag :=
  if text = "" then null
  else
    let cs := trimFeed text.toList
    let s := String.ofList cs
    if s ∈ truthNames then bool
    else if isFloat cs then float
    else if isInt cs then int
    else if s = "<<" then merge
    else if s ∈ nullNames then null
    else if isTimestamp cs then timestamp
    else if s = "=" then value
    else if s ∈ ["!", "&", "*"] then unknown
    else str

end Tag

end ChangeReview.Yaml
