import Mathlib.Data.List.Basic
import ChangeReview.Glob

/-!
# What a bracket stands for

The text of a bracket can be read from left to right, item by item: a hyphen
with a character on either side makes the two the ends of a range, and any
other character stands for itself (`items`). The set of a bracket is worked
out in another way, in three passes over chunks of the text. It is cut at the
hyphens that make ranges, chunks are joined where a range would run backwards,
and ranges are put where cuts are left.

The two agree, and that takes no argument about sets: what the passes come to
is, entry by entry, the list of the items without the ranges that run
backwards (`Token.ofBracket_eq`). What carries the proof is the relation
between chunks and the items they hold (`Chunked`). Cutting the text gives
chunks that hold its items, and joining chunks at a backward range leaves
chunks that hold the other items; so the relation is all that has to be known
of either pass.

The exclamation mark is the one thing to be careful about. It is looked for
when the backward ranges are gone, so it negates the set also when such ranges
stood in front of it, and even when it is the start of a range.
-/

namespace ChangeReview.Glob

/-! ## Where a bracket ends -/

/-- The text of a bracket: any character, behind an exclamation mark or not,
and then no closing bracket. -/
inductive IsBracketText : List Char → Prop
  | plain {a : Char} {body : List Char} (ha : a ≠ '!') (hbody : ']' ∉ body) :
      IsBracketText (a :: body)
  | marked {a : Char} {body : List Char} (hbody : ']' ∉ body) : IsBracketText ('!' :: a :: body)

/-- The first closing bracket behind a text without one. -/
theorem span_closing {body : List Char} (hbody : ']' ∉ body) (rest : List Char) :
    (body ++ ']' :: rest).takeWhile (· != ']') = body ∧
      (body ++ ']' :: rest).dropWhile (· != ']') = ']' :: rest := by
  have hall : ∀ c ∈ body, (c != ']') = true := fun c hc =>
    bne_iff_ne.mpr (ne_of_mem_of_not_mem hc hbody)
  rw [List.takeWhile_append_of_pos hall, List.dropWhile_append_of_pos hall]
  simp

theorem closing_of_dropWhile {cs rest : List Char} {c : Char}
    (h : cs.dropWhile (· != ']') = c :: rest) :
    ']' ∉ cs.takeWhile (· != ']') ∧ cs = cs.takeWhile (· != ']') ++ ']' :: rest := by
  obtain rfl : c = ']' := by
    have hhead := List.head?_dropWhile_not (· != ']') cs
    rw [h] at hhead
    simpa using hhead
  refine ⟨fun hmem => absurd (List.all_eq_true.mp List.all_takeWhile _ hmem) (by decide), ?_⟩
  rw [← h, List.takeWhile_append_dropWhile]

/-- The first character of the text of a bracket does not end it. -/
theorem bracket?_plain {a : Char} (ha : a ≠ '!') (cs : List Char) :
    bracket? (a :: cs) = match cs.dropWhile (· != ']') with
      | [] => none
      | _ :: rest => some (a :: cs.takeWhile (· != ']'), rest) := by
  by_cases hclose : a = ']' <;> cases h : cs.dropWhile (· != ']') <;>
    simp [bracket?, ha, hclose, h]

/-- Nor does the one behind an exclamation mark. -/
theorem bracket?_marked (a : Char) (cs : List Char) :
    bracket? ('!' :: a :: cs) = match cs.dropWhile (· != ']') with
      | [] => none
      | _ :: rest => some ('!' :: a :: cs.takeWhile (· != ']'), rest) := by
  by_cases hclose : a = ']' <;> cases h : cs.dropWhile (· != ']') <;>
    simp [bracket?, hclose, h]

/-- **Where a bracket ends**: at the first closing bracket that leaves a text
for it. -/
theorem bracket?_eq_some_iff {cs stuff rest : List Char} :
    bracket? cs = some (stuff, rest) ↔ IsBracketText stuff ∧ cs = stuff ++ ']' :: rest := by
  constructor
  · intro h
    match cs with
    | [] => cases h
    | a :: cs =>
      by_cases ha : a = '!'
      · subst ha
        cases cs with
        | nil => cases h
        | cons a cs =>
          rw [bracket?_marked] at h
          split at h
          · cases h
          · next hdrop =>
            obtain ⟨hbody, hcs⟩ := closing_of_dropWhile hdrop
            obtain ⟨rfl, rfl⟩ := Prod.mk.inj (Option.some.inj h)
            exact ⟨.marked hbody, congrArg ('!' :: a :: ·) hcs⟩
      · rw [bracket?_plain ha] at h
        split at h
        · cases h
        · next hdrop =>
          obtain ⟨hbody, hcs⟩ := closing_of_dropWhile hdrop
          obtain ⟨rfl, rfl⟩ := Prod.mk.inj (Option.some.inj h)
          exact ⟨.plain ha hbody, congrArg (a :: ·) hcs⟩
  · rintro ⟨hstuff, rfl⟩
    cases hstuff with
    | plain ha hbody =>
      obtain ⟨htake, hdrop⟩ := span_closing hbody rest
      rw [List.cons_append, bracket?_plain ha, htake, hdrop]
    | marked hbody =>
      obtain ⟨htake, hdrop⟩ := span_closing hbody rest
      rw [List.cons_append, List.cons_append, bracket?_marked, htake, hdrop]

/-! ## Items -/

/-- An item of the text of a bracket. -/
inductive Item where
  | char (c : Char)
  | range (first last : Char)

namespace Item

/-- Whether an item has a character in it: a range that runs backwards has
none. -/
def isForward : Item → Bool
  | .char _ => true
  | .range a b => a ≤ b

/-- The first and the last character of an item. -/
def ends : Item → Char × Char
  | .char c => (c, c)
  | .range a b => (a, b)

end Item

/-- The items of a text, from left to right. -/
def items : List Char → List Item
  | a :: '-' :: b :: rest => .range a b :: items rest
  | c :: rest => .char c :: items rest
  | [] => []

/-- The items of a text that have a character in them. -/
def forwardItems (cs : List Char) : List Item := (items cs).filter Item.isForward

/-- The set that items stand for, those without a character in them left out.
An exclamation mark in front negates the set. Where it would be the start of a
range it negates all the same, and the hyphen and the end of the range stand
for themselves. -/
def setOfItems : List Item → Token
  | .char '!' :: its => .oneOf true (its.map Item.ends)
  | .range '!' b :: its => .oneOf true (('-', '-') :: (b, b) :: its.map Item.ends)
  | its => .oneOf false (its.map Item.ends)

/-- **The set that a bracket stands for**: that of the items of its text, or,
where the text starts with an exclamation mark, the negated one of the items
behind it. -/
def setOfText : List Char → Token
  | '!' :: body => .oneOf true ((forwardItems body).map Item.ends)
  | stuff => setOfItems (forwardItems stuff)

theorem items_range (a b : Char) (rest : List Char) :
    items (a :: '-' :: b :: rest) = .range a b :: items rest := by
  rw [items]

/-- A character that no hyphen follows stands for itself. -/
theorem items_char (a : Char) {c : Char} (hc : c ≠ '-') (rest : List Char) :
    items (a :: c :: rest) = .char a :: items (c :: rest) := by
  rw [items]
  rintro b rest' ⟨⟩
  exact hc rfl

/-! ## Chunks and the items they hold -/

/-- Chunks hold items: the end of one and the start of the next are the ends
of a range, and all other characters stand for themselves. -/
inductive Chunked : List (List Char) → List Item → Prop
  | last (chunk : List Char) : Chunked [chunk] (chunk.map .char)
  | cons (chunk : List Char) (a b : Char) {next : List Char} {rest : List (List Char)}
      {its : List Item} (h : Chunked (next :: rest) its) :
      Chunked ((chunk ++ [a]) :: (b :: next) :: rest) (chunk.map .char ++ .range a b :: its)

theorem rangesFrom_concat (chunk : List Char) (a b : Char) (next : List Char)
    (rest : List (List Char)) :
    rangesFrom (chunk ++ [a]) ((b :: next) :: rest)
      = (chunk.map fun c => (c, c)) ++ (a, b) :: rangesFrom next rest := by
  rw [rangesFrom, List.dropLast_concat]
  exact List.getLast?_concat

/-- A hyphen with nothing before it stands for itself. -/
theorem rangesFrom_nil_cons (next : List Char) (rest : List (List Char)) :
    rangesFrom [] (next :: rest) = ('-', '-') :: rangesFrom next rest := rfl

namespace Chunked

variable {chunk : List Char} {rest : List (List Char)} {its : List Item}

/-- Characters in front of the chunks are items in front of the items. -/
theorem append_left (h : Chunked (chunk :: rest) its) (front : List Char) :
    Chunked ((front ++ chunk) :: rest) (front.map .char ++ its) := by
  cases h with
  | last =>
    rw [← List.map_append]
    exact .last _
  | cons chunk a b h =>
    rw [← List.append_assoc, ← List.append_assoc, ← List.map_append]
    exact .cons _ _ _ h

/-- The first chunk starts as the first item does. -/
theorem head?_eq (h : Chunked (chunk :: rest) its) :
    its.head?.map (·.ends.1) = chunk.head? := by
  cases h with
  | last => cases chunk <;> rfl
  | cons front => cases front <;> rfl

/-- **Ranges are put where the cuts are.** -/
theorem rangesFrom_eq (h : Chunked (chunk :: rest) its) :
    rangesFrom chunk rest = its.map Item.ends := by
  generalize hchunks : chunk :: rest = chunks at h
  induction h generalizing chunk rest with
  | last =>
    obtain ⟨rfl, rfl⟩ := List.cons.inj hchunks
    rw [rangesFrom, List.map_map]
    rfl
  | cons chunk a b h ih =>
    obtain ⟨rfl, rfl⟩ := List.cons.inj hchunks
    rw [rangesFrom_concat, ih rfl, List.map_append, List.map_map, List.map_cons]
    rfl

end Chunked

/-- **The chunks of a text hold its items.** Of the chunk that is being read
`acc` and `a` have been read already. -/
theorem exists_chunked (acc : List Char) (a : Char) (cs : List Char) :
    ∃ chunk rest, chunksAfter 0 (a :: acc) cs = (acc.reverse ++ chunk) :: rest ∧
      Chunked (chunk :: rest) (items (a :: cs)) := by
  match cs with
  | [] => exact ⟨[a], [], by simp [chunksAfter], .last [a]⟩
  | c :: cs =>
    by_cases hc : c = '-'
    · subst hc
      match cs with
      | [] => exact ⟨[a, '-'], [], by simp [chunksAfter], .last [a, '-']⟩
      | [b] => exact ⟨[a], [[b]], by simp [chunksAfter], .cons [] a b (.last [])⟩
      | b :: d :: cs =>
        -- behind a hyphen two characters are read whatever they are
        obtain ⟨chunk, rest, hchunks, hitems⟩ := exists_chunked [b] d cs
        refine ⟨[a], (b :: chunk) :: rest, ?_, ?_⟩
        · rw [chunksAfter, if_pos ⟨rfl, rfl⟩, if_neg (List.cons_ne_nil _ _), List.reverse_cons]
          show _ :: chunksAfter 0 (d :: [b]) cs = _
          rw [hchunks]
          rfl
        · rw [items_range]
          exact .cons [] a b hitems
    · obtain ⟨chunk, rest, hchunks, hitems⟩ := exists_chunked (a :: acc) c cs
      refine ⟨a :: chunk, rest, ?_, ?_⟩
      · rw [chunksAfter, if_neg fun h => hc h.2, hchunks, List.reverse_cons, List.append_assoc]
        rfl
      · rw [items_char a hc]
        exact hitems.append_left [a]
termination_by cs.length

/-- One step of joining: the two ends of a range that runs backwards vanish. -/
theorem mergeChunks_concat (chunk : List Char) (a : Char) {b : Char} {next : List Char}
    {rest more : List (List Char)} (h : mergeChunks rest = (b :: next) :: more) :
    mergeChunks ((chunk ++ [a]) :: rest)
      = if b < a then (chunk ++ next) :: more else (chunk ++ [a]) :: (b :: next) :: more := by
  rw [mergeChunks, h]
  simp

/-- **Joining takes away the ranges that run backwards** and nothing else. It
does not look at the start of the first chunk, so there may be anything in
front of it. -/
theorem Chunked.exists_mergeChunks {chunk : List Char} {rest : List (List Char)}
    {its : List Item} (h : Chunked (chunk :: rest) its) :
    ∃ next more, (∀ front, mergeChunks ((front ++ chunk) :: rest) = (front ++ next) :: more) ∧
      Chunked (next :: more) (its.filter Item.isForward) := by
  generalize hchunks : chunk :: rest = chunks at h
  induction h generalizing chunk rest with
  | last chunk =>
    obtain ⟨rfl, rfl⟩ := List.cons.inj hchunks
    refine ⟨chunk, [], fun front => rfl, ?_⟩
    rw [List.filter_eq_self.mpr (by simp [Item.isForward])]
    exact .last chunk
  | cons chunk a b h ih =>
    obtain ⟨rfl, rfl⟩ := List.cons.inj hchunks
    obtain ⟨next, more, hmerge, hnext⟩ := ih rfl
    have hstep (front : List Char) := mergeChunks_concat (front ++ chunk) a (hmerge [b])
    have hchars : (chunk.map Item.char).filter Item.isForward = chunk.map Item.char :=
      List.filter_eq_self.mpr (by simp [Item.isForward])
    rw [List.filter_append, hchars]
    by_cases hab : a ≤ b
    · refine ⟨chunk ++ [a], (b :: next) :: more, fun front => ?_, ?_⟩
      · rw [← List.append_assoc]
        exact (hstep front).trans (if_neg (Char.not_lt.mpr hab))
      · rw [List.filter_cons_of_pos (by simpa [Item.isForward] using hab)]
        exact .cons chunk a b hnext
    · refine ⟨chunk ++ next, more, fun front => ?_, ?_⟩
      · rw [← List.append_assoc, ← List.append_assoc]
        exact (hstep front).trans (if_pos (Char.not_le.mp hab))
      · rw [List.filter_cons_of_neg (by simpa [Item.isForward] using hab)]
        exact hnext.append_left chunk

/-! ## The set of a bracket -/

/-- The chunks of a text that starts with a character that does not negate. -/
theorem chunks_cons {a : Char} (ha : a ≠ '!') (cs : List Char) :
    chunks (a :: cs) = chunksAfter 0 [a] cs := by
  rw [chunks, List.head?_cons, if_neg fun h => ha (Option.some.inj h), chunksAfter,
    if_neg fun h => Nat.one_ne_zero h.1]

/-- The chunks of a text that starts with an exclamation mark. -/
theorem chunks_mark (a : Char) (cs : List Char) :
    chunks ('!' :: a :: cs) = chunksAfter 0 [a, '!'] cs := by
  rw [chunks, List.head?_cons, if_pos rfl, chunksAfter, if_neg fun h => absurd h.1 (by decide),
    chunksAfter, if_neg fun h => absurd h.1 (by decide)]

/-- Items in front of which no exclamation mark stands are those of the set. -/
theorem setOfItems_of_plain {its : List Item} (h : its.head?.map (·.ends.1) ≠ some '!') :
    setOfItems its = .oneOf false (its.map Item.ends) := by
  unfold setOfItems
  split
  · exact absurd rfl h
  · exact absurd rfl h
  · rfl

/-- **What joined chunks stand for** is the set of the items they hold. -/
theorem Token.ofBracket_of_chunked {stuff chunk : List Char} {rest : List (List Char)}
    {its : List Item} (hstuff : mergeChunks (chunks stuff) = chunk :: rest)
    (h : Chunked (chunk :: rest) its) : Token.ofBracket stuff = setOfItems its := by
  rw [Token.ofBracket, hstuff]
  by_cases hhead : chunk.head? = some '!'
  · obtain ⟨body, rfl⟩ := List.head?_eq_some_iff.mp hhead
    show Token.oneOf true (rangesFrom body rest) = _
    generalize hchunk : '!' :: body = marked at h
    cases h with
    | last =>
      rw [← hchunk, (Chunked.last body).rangesFrom_eq]
      rfl
    | cons front a b h =>
      cases front with
      | nil =>
        -- the mark would be the start of a range
        obtain ⟨rfl, rfl⟩ := List.cons.inj hchunk
        rw [rangesFrom_nil_cons]
        exact congrArg (fun rs => Token.oneOf true (_ :: rs)) (h.append_left [b]).rangesFrom_eq
      | cons c front =>
        obtain ⟨rfl, rfl⟩ := List.cons.inj hchunk
        exact congrArg (Token.oneOf true) (Chunked.cons front a b h).rangesFrom_eq
  · have hplain : its.head?.map (·.ends.1) ≠ some '!' := h.head?_eq ▸ hhead
    rw [setOfItems_of_plain hplain, ← h.rangesFrom_eq]
    split
    · next heq =>
      obtain ⟨rfl, -⟩ := List.cons.inj heq
      exact absurd rfl hhead
    · next heq =>
      obtain ⟨rfl, rfl⟩ := List.cons.inj heq
      rfl
    · next heq => cases heq

/-- **The set of a bracket is that of the items of its text.** -/
theorem Token.ofBracket_eq (stuff : List Char) : Token.ofBracket stuff = setOfText stuff := by
  match stuff with
  | [] => rfl
  | a :: cs =>
    by_cases ha : a = '!'
    · subst ha
      cases cs with
      | nil => rfl
      | cons a cs =>
        obtain ⟨chunk, rest, hchunks, hitems⟩ := exists_chunked ['!'] a cs
        obtain ⟨next, more, hmerge, hnext⟩ := hitems.exists_mergeChunks
        have hmark : mergeChunks (chunks ('!' :: a :: cs)) = ('!' :: next) :: more := by
          rw [chunks_mark, hchunks]
          exact hmerge ['!']
        rw [Token.ofBracket, hmark]
        exact congrArg (Token.oneOf true) hnext.rangesFrom_eq
    · obtain ⟨chunk, rest, hchunks, hitems⟩ := exists_chunked [] a cs
      obtain ⟨next, more, hmerge, hnext⟩ := hitems.exists_mergeChunks
      have hplain : mergeChunks (chunks (a :: cs)) = next :: more := by
        rw [chunks_cons ha, hchunks]
        exact hmerge []
      rw [ofBracket_of_chunked hplain hnext, setOfText]
      · rfl
      · rintro body ⟨⟩
        exact ha rfl

end ChangeReview.Glob
