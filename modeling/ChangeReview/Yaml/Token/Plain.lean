import ChangeReview.Yaml.Cursor

/-!
# Plain scalars

A text without quotes goes on until a colon or a comment ends it, over single spaces and over line
ends alike: a line end in it becomes a space, and each further one is kept. In a flow collection the
characters that give it its shape end the text too, and in a block a line that is not indented
deeper than the block does.
-/

namespace ChangeReview.Yaml.Plain

/-- What stands between the words of a text and was not taken in yet. -/
inductive Gap where
  | none
  /-- Spaces within a line. -/
  | spaces (cs : List Char)
  /-- Line ends, and the column that the spaces behind the last of them reach. -/
  | lines (first : Char) (more : List Char) (column : Nat)

/-- The text that a gap comes to once the scalar goes on behind it. -/
def Gap.text : Gap → List Char
  | .none => []
  | .spaces cs => cs
  | .lines first more _ =>
    if first ≠ '\n' then first :: more else if more = [] then [' '] else more

/-- Whether a comment may start behind a gap. -/
def Gap.endsWord : Gap → Bool
  | .none => false
  | _ => true

/-- Whether the text is indented enough to go on behind a gap. -/
def Gap.reaches (indent : Nat) : Gap → Bool
  | .lines _ _ column => indent ≤ column
  | _ => true

/-- Whether a colon, with `rest` behind it, ends a text. -/
def colonEnds (flow : Bool) (rest : List Char) : Bool :=
  atBlank rest || flow && (rest.head?.any fun c => c ∈ [',', '[', ']', '\x7b', '\x7d'])

/-- Whether a character, with `rest` behind it, ends a text. -/
def ends (flow : Bool) (c : Char) (rest : List Char) : Bool :=
  (c == ':' && colonEnds flow rest) ||
    (flow && c ∈ [',', '?', '[', ']', '\x7b', '\x7d'])

/-- What a text goes on with behind a gap, and how many characters that takes; nothing at all when
the text has ended before the gap. -/
def read (flow : Bool) (indent : Nat) : Gap → List Char → List Char × Nat
  | _, [] => ([], 0)
  | gap, c :: rest =>
    let goOn (gap : Gap) : List Char × Nat :=
      match read flow indent gap rest with
      | ([], _) => ([], 0)
      | (text, n) => (text, n + 1)
    if c = ' ' then
      match gap with
      | .none => goOn (.spaces [c])
      | .spaces cs => goOn (.spaces (cs ++ [c]))
      | .lines first more column => goOn (.lines first more (column + 1))
    else if isBreak c then
      if atSeparator rest then ([], 0)
      else
        match gap with
        | .lines first more _ => goOn (.lines first (more ++ [c]) 0)
        | _ => goOn (.lines c [] 0)
    else if c = '\t' ∨ ends flow c rest ∨ (c = '#' ∧ gap.endsWord) ∨
        (!flow ∧ !gap.reaches indent) then ([], 0)
    else
      let (text, n) := read flow indent .none rest
      (gap.text ++ c :: text, n + 1)

end ChangeReview.Yaml.Plain
