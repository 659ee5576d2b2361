import ChangeReview.Text.Digit
import ChangeReview.Yaml.Cursor

/-!
# Block scalars

A text on lines of its own, all of them indented by the same amount, which is either given with the
mark in front or that of the first line that is not empty. In a literal text line ends are kept; in
a folded one a line end between two lines that do not start with a blank becomes a space. What
becomes of the line ends behind the text is given with the mark too.
-/

namespace ChangeReview.Yaml.Block

/-- What becomes of the line ends behind a text. -/
inductive Chomping where
  /-- The first is kept. -/
  | clip
  /-- None is kept. -/
  | strip
  /-- All are kept. -/
  | keep
  deriving DecidableEq, Repr

/-- What stands behind the mark of a block scalar. -/
structure Header where
  chomping : Chomping
  increment : Option Nat

/-- How the line ends behind a text are marked. -/
def chomping? : Char → Option Chomping
  | '+' => some .keep
  | '-' => some .strip
  | _ => none

/-- An amount of indentation: a digit other than zero. -/
def increment? (c : Char) : Option Nat := if '1' ≤ c ∧ c ≤ '9' then some (c.toNat - 48) else none

/-- The header behind a mark and how many characters it takes; its two parts come in either order.
-/
def header (cs : List Char) : Header × Nat :=
  match cs with
  | a :: rest =>
    match chomping? a, increment? a with
    | some ch, _ =>
      match rest.head?.bind increment? with
      | some n => (⟨ch, some n⟩, 2)
      | none => (⟨ch, none⟩, 1)
    | none, some n =>
      match rest.head?.bind chomping? with
      | some ch => (⟨ch, some n⟩, 2)
      | none => (⟨.clip, some n⟩, 1)
    | none, none => (⟨.clip, none⟩, 0)
  | [] => (⟨.clip, none⟩, 0)

/-- The place behind the rest of a line on which nothing but a comment stands. -/
def behindLine? (c : Cursor) : Option Cursor :=
  let c := c.skipWhile (· == ' ')
  let c := if c.rest.head? = some '#' then c.skipWhile (!isBreak ·) else c
  if atLineEnd c.rest then some c.next else none

/-- Passes over spaces and line ends. `deepest` is the greatest column reached on the way. -/
def leading (deepest : Nat) : Nat → Cursor → List Char × Nat × Cursor
  | 0, c => ([], deepest, c)
  | fuel + 1, c =>
    match c.rest with
    | ch :: _ =>
      if ch = ' ' then leading (max deepest c.next.column) fuel c.next
      else if isBreak ch then
        let (breaks, rest) := leading deepest fuel c.next
        (ch :: breaks, rest)
      else ([], deepest, c)
    | [] => ([], deepest, c)

/-- Passes over line ends, and over spaces up to a column on each line. -/
def breaks (indent : Nat) : Nat → Cursor → List Char × Cursor
  | 0, c => ([], c)
  | fuel + 1, c =>
    match c.rest with
    | ch :: _ =>
      if ch = ' ' ∧ c.column < indent then breaks indent fuel c.next
      else if isBreak ch then
        let (bs, rest) := breaks indent fuel c.next
        (ch :: bs, rest)
      else ([], c)
    | [] => ([], c)

/-- Whether a line of the text starts here. -/
def atLine (indent : Nat) (c : Cursor) : Bool := c.column == indent && !c.rest.isEmpty

/-- The line ends that are kept behind a text. -/
def tail (chomping : Chomping) (lineEnd blank : List Char) : List Char :=
  match chomping with
  | .clip => lineEnd
  | .strip => []
  | .keep => lineEnd ++ blank

/-- The lines of a text from a place on, and the place behind them; `blank` holds the line ends
before the place, and `lineEnd` the one of the last line. -/
def lines (folded : Bool) (chomping : Chomping) (indent : Nat) :
    Nat → List Char → List Char → Cursor → List Char × Cursor
  | 0, blank, lineEnd, c => (tail chomping lineEnd blank, c)
  | fuel + 1, blank, lineEnd, c =>
    if atLine indent c then
      let line := c.rest.takeWhile (!isBreak ·)
      let behind := c.skipWhile (!isBreak ·)
      let newEnd := behind.rest.take 1
      let (newBlank, next) := breaks indent behind.rest.length behind.next
      let join :=
        if !atLine indent next then []
        else if folded ∧ newEnd = ['\n'] ∧ !c.rest.head?.any isBlank ∧
            !next.rest.head?.any isBlank then
          if newBlank = [] then [' '] else []
        else newEnd
      let (text, last) := lines folded chomping indent fuel newBlank newEnd next
      (blank ++ line ++ join ++ text, last)
    else (tail chomping lineEnd blank, c)

/-- The text of a block scalar and the place behind it, from the place of its mark; `parent` is the
column of the block it stands in, if any. -/
def read? (folded : Bool) (parent : Int) (c : Cursor) : Option (List Char × Cursor) := do
  let c := c.next
  let (h, n) := header c.rest
  let c := c.advance n
  if !atSpace c.rest then none
  else
    let c ← behindLine? c
    let least := max 1 (parent + 1).toNat
    let fuel := c.rest.length + 1
    match h.increment with
    | some n =>
      let indent := least + n - 1
      let (blank, first) := breaks indent fuel c
      return lines folded h.chomping indent fuel blank [] first
    | none =>
      let (blank, deepest, first) := leading 0 fuel c
      return lines folded h.chomping (max least deepest) fuel blank [] first

end ChangeReview.Yaml.Block
