/-!
# File patterns

A pattern is cut into tokens, each of which stands for characters of a name: a star for any run of
them, a question mark for any one, a bracket for one of a set, and every other character for itself.
A slash is a character like the others. The pattern matches a name when the name can be cut into
pieces that suit the tokens one by one.

The tokens are worked off in order, keeping the ends of the name that can be left after each: they
are all ends of the longest one, so a star makes a single step however many ways there are to cut.

## Brackets

In a bracket, a leading exclamation mark negates the set, a closing bracket that comes first is a
character of the set, and a hyphen between two characters makes a range. The text is cut into chunks
at the hyphens that make ranges; where a range would run backwards, its two ends vanish and the
chunks around it become one. A set that loses all its text this way matches nothing, or, negated,
anything.
-/

namespace ChangeReview.Glob

/-- A token of a pattern. -/
inductive Token where
  /-- Any run of characters. -/
  | anyRun
  /-- Any one character. -/
  | anyOne
  /-- One character within one of the ranges, or outside all of them. -/
  | oneOf (negated : Bool) (ranges : List (Char × Char))
  /-- This very character. -/
  | literal (c : Char)
  deriving DecidableEq, Repr

/-- The text of a bracket and what follows it, for the text behind an opening bracket; none when the
bracket is not closed. The exclamation mark and the bracket that may come first do not close it. -/
def bracket? (cs : List Char) : Option (List Char × List Char) :=
  let (mark, cs) := if cs.head? = some '!' then (['!'], cs.drop 1) else ([], cs)
  let (first, cs) := if cs.head? = some ']' then ([']'], cs.drop 1) else ([], cs)
  match cs.dropWhile (· != ']') with
  | [] => none
  | _ :: rest => some (mark ++ first ++ cs.takeWhile (· != ']'), rest)

/-- Cuts a text into chunks at the hyphens that make ranges. A hyphen does if it is not among the
first `skip` characters of the chunk, and not the last character of all; `chunk` is what was read of
the chunk, reversed. -/
def chunksAfter (skip : Nat) (chunk : List Char) : List Char → List (List Char)
  | [] => [chunk.reverse]
  | c :: rest =>
    if skip = 0 ∧ c = '-' then
      if rest = [] then [(c :: chunk).reverse] else chunk.reverse :: chunksAfter 2 [] rest
    else chunksAfter (skip - 1) (c :: chunk) rest

/-- The chunks of the text of a bracket. -/
def chunks (stuff : List Char) : List (List Char) :=
  chunksAfter (if stuff.head? = some '!' then 2 else 1) [] stuff

/-- Joins the chunks around each range that runs backwards, from the last range on. -/
def mergeChunks : List (List Char) → List (List Char)
  | [] => []
  | chunk :: rest =>
    match mergeChunks rest with
    | [] => [chunk]
    | next :: more =>
      match chunk.getLast?, next.head? with
      | some a, some b =>
        if b < a then (chunk.dropLast ++ next.tail) :: more else chunk :: next :: more
      | _, _ => chunk :: next :: more

/-- The ranges that chunks stand for: one from the end of each to the start of the next, and single
characters. A hyphen with nothing before it is such a character. -/
def rangesFrom (chunk : List Char) : List (List Char) → List (Char × Char)
  | [] => chunk.map fun c => (c, c)
  | next :: rest =>
    match chunk.getLast?, next with
    | some a, b :: next => (chunk.dropLast.map fun c => (c, c)) ++ (a, b) :: rangesFrom next rest
    | _, next => ('-', '-') :: rangesFrom next rest

/-- The token that a bracket with this text stands for. -/
def Token.ofBracket (stuff : List Char) : Token :=
  match mergeChunks (chunks stuff) with
  | ('!' :: chunk) :: rest => .oneOf true (rangesFrom chunk rest)
  | chunk :: rest => .oneOf false (rangesFrom chunk rest)
  | [] => .oneOf false []

theorem length_lt_of_bracket? {cs stuff rest : List Char} (h : bracket? cs = some (stuff, rest)) :
    rest.length < cs.length := by
  have shorter (l : List Char) : (l.dropWhile (· != ']')).length ≤ l.length :=
    (List.dropWhile_sublist _).length_le
  unfold bracket? at h
  grind

/-- The tokens of a pattern. -/
def tokens : List Char → List Token
  | [] => []
  | '*' :: rest => .anyRun :: tokens rest
  | '?' :: rest => .anyOne :: tokens rest
  | '[' :: rest =>
    match h : bracket? rest with
    | none => .literal '[' :: tokens rest
    | some (stuff, rest') =>
      have := length_lt_of_bracket? h
      .ofBracket stuff :: tokens rest'
  | c :: rest => .literal c :: tokens rest
termination_by cs => cs.length

/-- Whether a token stands for this one character. -/
def Token.accepts (c : Char) : Token → Bool
  | .anyRun | .anyOne => true
  | .oneOf negated ranges => negated != ranges.any fun (a, b) => a ≤ c && c ≤ b
  | .literal d => c = d

/-- The ends of a text, from the text itself down to the empty one. -/
def ends : List Char → List (List Char)
  | [] => [[]]
  | c :: rest => (c :: rest) :: ends rest

/-- What can be left of the name behind a token, given what can be left before it. -/
def advance (left : List (List Char)) (t : Token) : List (List Char) :=
  match t with
  -- The longest comes first, and the others are ends of it.
  | .anyRun => (left.head?.map ends).getD []
  | t =>
    left.filterMap fun
      | [] => none
      | c :: rest => if t.accepts c then some rest else none

/-- Whether a pattern matches a name. -/
def isMatch (pattern name : String) : Bool :=
  ((tokens pattern.toList).foldl advance [name.toList]).any List.isEmpty

end ChangeReview.Glob
