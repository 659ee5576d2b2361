import ChangeReview.Change.HeaderLine
import Mathlib.Data.List.Infix

/-!
# The names of the two sides

The line that starts a file section holds the path of the file twice, once
for either side, with a letter and a slash in front to tell the sides
apart. A path with characters that would not survive in such a line is put
between quotes, and those characters are escaped.

The two names are separated by a space, and a space within a path is not
escaped. The reader cuts at the last space behind which a name of the new
side can begin. That is the right one unless the new path itself holds
` b/`, that is, unless a directory on its way has a name ending in ` b`
(`twoNames?_sideName`); then what the reader takes for the new name is too
short (`twoNames?_sideName_of_hasSideMark`).
-/

namespace ChangeReview

/-- **A path in a repository**: names one below the other, none of them a
dot or two dots. -/
structure RepoPath where
  names : List String
  nonempty : names ≠ []
  proper : ∀ n ∈ names, Path.IsName n ∧ n ≠ ".." ∧ '\x00' ∉ n.toList

namespace RepoPath

/-- The text of a path, the names separated by slashes. -/
def chars (p : RepoPath) : List Char := ['/'].intercalate (p.names.map String.toList)

/-- Whether a path holds the mark of the new side behind a space. -/
def HasSideMark (p : RepoPath) : Prop := [' ', 'b', '/'] <:+: p.chars

instance (p : RepoPath) : Decidable p.HasSideMark :=
  inferInstanceAs (Decidable ([' ', 'b', '/'] <:+: p.chars))

/-- Whether a character stands for itself in a diff. With `quotePath`, as
it is by default, only a printable ASCII character does. -/
def isPlain (quotePath : Bool) (c : Char) : Bool :=
  0x20 ≤ c.toNat && c != '"' && c != '\\' && c.toNat != 0x7F && (c.toNat < 0x80 || !quotePath)

/-- The letter that stands for a character behind a backslash. -/
def escape? : Char → Option Char
  | '"' => some '"'
  | '\\' => some '\\'
  | '\x07' => some 'a'
  | '\x08' => some 'b'
  | '\t' => some 't'
  | '\n' => some 'n'
  | '\x0b' => some 'v'
  | '\x0c' => some 'f'
  | '\r' => some 'r'
  | _ => none

/-- A byte in three octal digits behind a backslash. -/
def octal (b : UInt8) : List Char :=
  ['\\', Text.digit (b.toNat / 64), Text.digit (b.toNat / 8 % 8), Text.digit (b.toNat % 8)]

/-- A character between quotes. -/
def escaped (quotePath : Bool) (c : Char) : List Char :=
  if isPlain quotePath c then [c]
  else
    match escape? c with
    | some letter => ['\\', letter]
    | none => (String.utf8EncodeChar c).flatMap octal

/-- A path behind a mark, quoted where the path has to be. -/
def written (quotePath : Bool) (mark : List Char) (p : RepoPath) : List Char :=
  if p.chars.all (isPlain quotePath) then mark ++ p.chars
  else '"' :: mark ++ p.chars.flatMap (escaped quotePath) ++ ['"']

/-- The name of one side. -/
def sideName (quotePath : Bool) (side : Char) (p : RepoPath) : List Char :=
  p.written quotePath [side, '/']

end RepoPath

/-! ## Cutting at a space -/

namespace HeaderLine

/-- A text is a name of a side exactly when the mark of the side stands in
front of something, behind a quote or not. -/
theorem isSide_iff {side : Char} (hside : side ≠ '"') {cs : List Char} :
    isSide side cs = true
      ↔ ∃ d rest, cs = side :: '/' :: d :: rest ∨ cs = '"' :: side :: '/' :: d :: rest := by
  constructor
  · intro h
    unfold isSide at h
    split at h
    · obtain rfl := eq_of_beq h
      exact ⟨_, _, Or.inr rfl⟩
    · obtain rfl := eq_of_beq h
      exact ⟨_, _, Or.inl rfl⟩
    · cases h
  · rintro ⟨d, rest, rfl | rfl⟩
    · simp [isSide, hside]
    · simp [isSide]

/-- A name of a side stays one when more stands behind it. -/
theorem isSide_append {side : Char} (hside : side ≠ '"') {cs : List Char}
    (h : isSide side cs = true) (more : List Char) : isSide side (cs ++ more) = true := by
  obtain ⟨d, rest, rfl | rfl⟩ := (isSide_iff hside).1 h
  · exact (isSide_iff hside).2 ⟨d, rest ++ more, Or.inl rfl⟩
  · exact (isSide_iff hside).2 ⟨d, rest ++ more, Or.inr rfl⟩

/-- A name of a side is that of a file. -/
theorem ne_nowhere_of_isSide {side : Char} (hquote : side ≠ '"') (hslash : side ≠ '/')
    {cs : List Char} (h : isSide side cs = true) : String.ofList cs ≠ FileChange.nowhere := by
  intro heq
  have hhead := congrArg (fun s : String => s.toList.head?) heq
  rw [String.toList_ofList] at hhead
  obtain ⟨d, rest, rfl | rfl⟩ := (isSide_iff hquote).1 h
  · exact hslash (Option.some.inj hhead)
  · exact absurd (Option.some.inj hhead) (by decide)

variable {α : Type} {ok : List Char → List Char → Option α}

/-- A cut behind the beginning of a text goes before one within it. -/
theorem lastCutAfter_append (ok : List Char → List Char → Option α) (x : List Char) :
    ∀ left y : List Char,
    ∃ earlier, lastCutAfter ok left (x ++ y)
      = (lastCutAfter ok (x.reverse ++ left) y).or earlier := by
  induction x with
  | nil => exact fun left y => ⟨none, by simp⟩
  | cons c x ih =>
    intro left y
    obtain ⟨earlier, h⟩ := ih (c :: left) y
    refine ⟨earlier.or (if c = ' ' then ok left.reverse (x ++ y) else none), ?_⟩
    rw [List.cons_append, lastCutAfter, h, Option.or_assoc, List.reverse_cons, List.append_assoc]
    rfl

/-- **What a cut gives is what some space gives.** -/
theorem exists_of_lastCutAfter {left y : List Char} {v : α}
    (h : lastCutAfter ok left y = some v) :
    ∃ p r, y = p ++ ' ' :: r ∧ ok (left.reverse ++ p) r = some v := by
  induction y generalizing left with
  | nil => cases h
  | cons c y ih =>
    rw [lastCutAfter, Option.or_eq_some_iff] at h
    obtain h | ⟨-, h⟩ := h
    · obtain ⟨p, r, rfl, hok⟩ := ih h
      exact ⟨c :: p, r, rfl, by simpa using hok⟩
    · obtain ⟨rfl, h⟩ : c = ' ' ∧ ok left.reverse y = some v := by
        split at h <;> simp_all
      exact ⟨[], y, rfl, by simpa using h⟩

/-- A text with a space that can be cut at is cut somewhere. -/
theorem exists_lastCutAfter (left p r : List Char) {v : α}
    (h : ok (left.reverse ++ p) r = some v) :
    ∃ w, lastCutAfter ok left (p ++ ' ' :: r) = some w := by
  obtain ⟨earlier, hcut⟩ := lastCutAfter_append ok p left (' ' :: r)
  rw [hcut, lastCutAfter, if_pos rfl, List.reverse_append, List.reverse_reverse, h]
  cases lastCutAfter ok (' ' :: (p.reverse ++ left)) r with
  | none => exact ⟨v, rfl⟩
  | some w => exact ⟨w, rfl⟩

/-- The part of a line that can hold names, the line end being none. -/
theorem takeWhile_inName {cs : List Char} (h : ∀ c ∈ cs, inName c = true) :
    (cs ++ ['\n']).takeWhile inName = cs := by
  rw [List.takeWhile_append_of_pos h]
  exact List.append_nil cs

/-- Two names, where both are marked with their side. -/
def bySide (l r : List Char) : Option (List Char × List Char) :=
  if isSide 'a' l && isSide 'b' r then some (l, r) else none

section TwoNames

variable {a b : List Char} (ha : isSide 'a' a = true)
  (hin : ∀ c ∈ a ++ ' ' :: b, inName c = true)
include ha hin

/-- **Two names are cut somewhere**, and what stands in front of the cut is a
name of the old side. -/
theorem exists_twoNames? (hb : isSide 'b' b = true) :
    ∃ a' b', twoNames? (a ++ ' ' :: b ++ ['\n']) = some (a', b') ∧ isSide 'a' a' = true := by
  have hmeet : bySide ([].reverse ++ a) b = some (a, b) := by simp [bySide, ha, hb]
  obtain ⟨⟨a', b'⟩, hw⟩ := exists_lastCutAfter [] a b hmeet
  obtain ⟨l, r, -, hok⟩ := exists_of_lastCutAfter hw
  refine ⟨a', b', ?_, ?_⟩
  · show (lastCut bySide ((a ++ ' ' :: b ++ ['\n']).takeWhile inName)).or _ = _
    rw [takeWhile_inName hin, lastCut, hw]
    rfl
  · unfold bySide at hok
    split at hok <;> simp_all

/-- **Two names are cut where they meet** unless the second can itself be
cut. -/
theorem twoNames?_eq (hb : isSide 'b' b = true)
    (hcut : ∀ p r, b = p ++ ' ' :: r → isSide 'b' r = false) :
    twoNames? (a ++ ' ' :: b ++ ['\n']) = some (a, b) := by
  obtain ⟨earlier, h⟩ := lastCutAfter_append bySide a [] (' ' :: b)
  have hnone : lastCutAfter bySide (' ' :: (a.reverse ++ [])) b = none := by
    rw [Option.eq_none_iff_forall_ne_some]
    intro v hv
    obtain ⟨p, r, rfl, hok⟩ := exists_of_lastCutAfter hv
    simp [bySide, hcut p r rfl] at hok
  have hlast : lastCut bySide (a ++ ' ' :: b) = some (a, b) := by
    rw [lastCut, h, lastCutAfter, hnone, if_pos rfl]
    simp [bySide, ha, hb]
  show (lastCut bySide ((a ++ ' ' :: b ++ ['\n']).takeWhile inName)).or _ = _
  rw [takeWhile_inName hin, hlast]
  rfl

/-- **Two names are cut too late** where the second can itself be cut. -/
theorem twoNames?_ne {p r : List Char} (hcut : b = p ++ ' ' :: r) (hr : isSide 'b' r = true) :
    ∃ a' b', twoNames? (a ++ ' ' :: b ++ ['\n']) = some (a', b') ∧ b' ≠ b := by
  obtain ⟨earlier, h⟩ := lastCutAfter_append bySide a [] (' ' :: b)
  have hfound : bySide ((' ' :: (a.reverse ++ [])).reverse ++ p) r = some (a ++ ' ' :: p, r) := by
    simpa [bySide, hr] using isSide_append (by decide) ha (' ' :: p)
  obtain ⟨⟨a', b'⟩, hw⟩ := exists_lastCutAfter (' ' :: (a.reverse ++ [])) p r hfound
  obtain ⟨q, s, hb', hok⟩ := exists_of_lastCutAfter hw
  refine ⟨a', b', ?_, ?_⟩
  · show (lastCut bySide ((a ++ ' ' :: b ++ ['\n']).takeWhile inName)).or _ = _
    rw [takeWhile_inName hin, lastCut, h, lastCutAfter, hcut, hw]
    rfl
  · -- what was taken for the second name stands behind a space in it
    have hs : s = b' := by
      unfold bySide at hok
      split at hok <;> simp_all
    rw [hcut, hb', ← hs]
    intro heq
    have hlen := congrArg List.length heq
    simp at hlen
    omega

end TwoNames

end HeaderLine

/-! ## Side names in a line -/

namespace RepoPath

variable {quotePath : Bool}

/-- The text of a path is not empty and does not end in a slash. -/
theorem getLast?_chars (p : RepoPath) : ∃ c, p.chars.getLast? = some c ∧ c ≠ '/' := by
  have key : ∀ ls : List (List Char), ls ≠ [] → (∀ l ∈ ls, l ≠ [] ∧ '/' ∉ l) →
      ∃ c, (['/'].intercalate ls).getLast? = some c ∧ c ≠ '/' := by
    intro ls hne h
    induction ls with
    | nil => exact absurd rfl hne
    | cons l ls ih =>
      match ls with
      | [] =>
        obtain ⟨hl, hslash⟩ := h l List.mem_cons_self
        have hmem := List.getLast_mem hl
        exact ⟨l.getLast hl, by simp [List.getLast?_eq_some_getLast hl],
          fun hc => hslash (hc ▸ hmem)⟩
      | l' :: ls =>
        obtain ⟨c, hlast, hc⟩ := ih (List.cons_ne_nil _ _)
          (fun m hm => h m (List.mem_cons_of_mem _ hm))
        refine ⟨c, ?_, hc⟩
        rw [List.intercalate_cons_cons, List.getLast?_append, hlast]
        rfl
  refine key _ (by simpa using p.nonempty) fun l hl => ?_
  obtain ⟨n, hn, rfl⟩ := List.mem_map.1 hl
  obtain ⟨⟨hne, -, hslash⟩, -⟩ := p.proper n hn
  exact ⟨by simpa using hne, hslash⟩

theorem chars_ne_nil (p : RepoPath) : p.chars ≠ [] := by
  obtain ⟨c, h, -⟩ := p.getLast?_chars
  rintro hnil
  simp [hnil] at h

/-- The letter behind a backslash is no blank. -/
theorem inName_of_escape? {c letter : Char} (h : escape? c = some letter) :
    letter ≠ ' ' ∧ HeaderLine.inName letter = true := by
  unfold escape? at h
  split at h <;> simp only [Option.some.injEq, reduceCtorEq] at h <;> subst h <;> decide

/-- **A character that is no plain one is written behind a backslash**,
without blanks of any kind. -/
theorem escaped_of_not_isPlain {c : Char} (h : isPlain quotePath c = false) :
    ∃ ds, escaped quotePath c = '\\' :: ds
      ∧ ∀ d ∈ '\\' :: ds, d ≠ ' ' ∧ HeaderLine.inName d = true := by
  have hdigit : ∀ n < 8, Text.digit n ≠ ' ' ∧ HeaderLine.inName (Text.digit n) = true := by decide
  have hoctal : ∀ b : UInt8, ∀ d ∈ octal b, d ≠ ' ' ∧ HeaderLine.inName d = true := by
    intro b d hd
    have hb := b.toNat_lt
    simp only [octal, List.mem_cons, List.not_mem_nil, or_false] at hd
    rcases hd with rfl | rfl | rfl | rfl
    · decide
    · exact hdigit _ (by omega)
    · exact hdigit _ (by omega)
    · exact hdigit _ (by omega)
  unfold escaped
  rw [if_neg (by simp [h])]
  split
  · rename_i letter hletter
    have hl := inName_of_escape? hletter
    exact ⟨[letter], rfl, by simpa using ⟨by decide, hl⟩⟩
  · obtain ⟨b, bs, hbs⟩ := List.exists_cons_of_ne_nil (String.utf8EncodeChar_ne_nil (c := c))
    have hall : ∀ d ∈ (String.utf8EncodeChar c).flatMap octal,
        d ≠ ' ' ∧ HeaderLine.inName d = true := by
      intro d hd
      obtain ⟨b, -, hd⟩ := List.mem_flatMap.1 hd
      exact hoctal b d hd
    rw [hbs] at hall ⊢
    exact ⟨_, rfl, hall⟩

theorem escaped_of_isPlain {c : Char} (h : isPlain quotePath c = true) :
    escaped quotePath c = [c] := if_pos h

/-- A plain character can be part of a name. -/
theorem inName_of_isPlain {c : Char} (h : isPlain quotePath c = true) :
    HeaderLine.inName c = true := by
  unfold HeaderLine.inName
  simp only [Bool.and_eq_true, bne_iff_ne]
  constructor <;> (rintro rfl; cases quotePath <;> exact absurd h (by decide))

theorem inName_of_mem_escaped {c d : Char} (h : d ∈ escaped quotePath c) :
    HeaderLine.inName d = true := by
  cases hc : isPlain quotePath c with
  | true =>
    rw [escaped_of_isPlain hc, List.mem_singleton] at h
    exact h ▸ inName_of_isPlain hc
  | false =>
    obtain ⟨ds, heq, hds⟩ := escaped_of_not_isPlain hc
    exact (hds d (heq ▸ h)).2

/-- **A path fits on a line**: no tab and no line feed is in it as it is
written. -/
theorem inName_of_mem_written {mark : List Char}
    (hmark : ∀ c ∈ mark, HeaderLine.inName c = true) (p : RepoPath) :
    ∀ c ∈ p.written quotePath mark, HeaderLine.inName c = true := by
  have hquote : HeaderLine.inName '"' = true := by decide
  intro c hc
  unfold written at hc
  split at hc
  · rename_i hplain
    rw [List.all_eq_true] at hplain
    rcases List.mem_append.1 hc with hc | hc
    · exact hmark c hc
    · exact inName_of_isPlain (hplain c hc)
  · simp only [List.cons_append, List.mem_cons, List.mem_append, List.mem_flatMap,
      List.not_mem_nil, or_false] at hc
    rcases hc with rfl | (hc | ⟨d, -, hd⟩) | rfl
    · exact hquote
    · exact hmark c hc
    · exact inName_of_mem_escaped hd
    · exact hquote

/-- The name of a side fits on a line. -/
theorem inName_of_mem_sideName {side : Char} (hside : HeaderLine.inName side = true)
    (p : RepoPath) : ∀ c ∈ sideName quotePath side p, HeaderLine.inName c = true :=
  inName_of_mem_written (by simpa [hside] using (by decide : HeaderLine.inName '/' = true)) p

theorem sideName_eq (side : Char) (p : RepoPath) :
    sideName quotePath side p
      = if p.chars.all (isPlain quotePath) then side :: '/' :: p.chars
        else '"' :: side :: '/' :: p.chars.flatMap (escaped quotePath) ++ ['"'] := rfl

/-- The name of a side is marked with it. -/
theorem isSide_sideName {side : Char} (hside : side ≠ '"') (p : RepoPath) :
    HeaderLine.isSide side (sideName quotePath side p) = true := by
  rw [HeaderLine.isSide_iff hside, sideName_eq]
  split
  · obtain ⟨c, cs, h⟩ := List.exists_cons_of_ne_nil p.chars_ne_nil
    exact ⟨c, cs, Or.inl (by rw [h])⟩
  · obtain ⟨c, cs, h⟩ := List.exists_cons_of_ne_nil
      (List.append_ne_nil_of_right_ne_nil (p.chars.flatMap (escaped quotePath))
        (List.cons_ne_nil '"' []))
    exact ⟨c, cs, Or.inr (by rw [← h]; rfl)⟩

/-- **A text between quotes can be cut at a space only where the text itself
can.** -/
theorem cut_escaped {cs p r : List Char} (h : cs.flatMap (escaped quotePath) = p ++ ' ' :: r) :
    ∃ l t, cs = l ++ ' ' :: t ∧ r = t.flatMap (escaped quotePath) := by
  induction cs generalizing p with
  | nil => simp at h
  | cons c cs ih =>
    rw [List.flatMap_cons] at h
    obtain ⟨p', rfl, hrest⟩ | ⟨more, hc, hrest⟩ := List.append_eq_append_iff.1 h
    · obtain ⟨l, t, rfl, hr⟩ := ih hrest
      exact ⟨c :: l, t, rfl, hr⟩
    · match more with
      | [] =>
        obtain ⟨l, t, rfl, hr⟩ := ih (p := []) (by simpa using hrest.symm)
        exact ⟨c :: l, t, rfl, hr⟩
      | d :: more =>
        obtain ⟨rfl, rfl⟩ : ' ' = d ∧ r = more ++ cs.flatMap (escaped quotePath) := by
          simpa using hrest
        cases hplain : isPlain quotePath c with
        | true =>
          rw [escaped_of_isPlain hplain, List.singleton_eq_append_iff] at hc
          obtain ⟨-, hc⟩ | ⟨-, hc⟩ := hc
          · obtain ⟨rfl, rfl⟩ : ' ' = c ∧ more = [] := by simpa using hc
            exact ⟨[], cs, rfl, rfl⟩
          · cases hc
        | false =>
          obtain ⟨ds, heq, hds⟩ := escaped_of_not_isPlain hplain
          have hmem : ' ' ∈ '\\' :: ds := by rw [← heq, hc]; simp
          exact absurd rfl (hds _ hmem).1

/-- A text between quotes starts with a plain character only where the text
itself does. -/
theorem cons_escaped {c : Char} {cs u : List Char} (hc : c ≠ '\\') (hquote : c ≠ '"')
    (h : cs.flatMap (escaped quotePath) ++ ['"'] = c :: u) :
    ∃ t, cs = c :: t ∧ u = t.flatMap (escaped quotePath) ++ ['"'] := by
  match cs with
  | [] =>
    obtain ⟨rfl, -⟩ : '"' = c ∧ [] = u := by simpa using h
    exact absurd rfl hquote
  | d :: cs =>
    rw [List.flatMap_cons] at h
    cases hplain : isPlain quotePath d with
    | true =>
      rw [escaped_of_isPlain hplain] at h
      obtain ⟨rfl, rfl⟩ : d = c ∧ cs.flatMap (escaped quotePath) ++ ['"'] = u := by simpa using h
      exact ⟨cs, rfl, rfl⟩
    | false =>
      obtain ⟨ds, heq, -⟩ := escaped_of_not_isPlain hplain
      rw [heq] at h
      exact absurd (List.cons.inj h).1.symm hc

/-- The characters of a side mark behind a space are written as they are. -/
theorem escaped_sideMark (cs : List Char) :
    (' ' :: 'b' :: '/' :: cs).flatMap (escaped quotePath)
      = ' ' :: 'b' :: '/' :: cs.flatMap (escaped quotePath) := by
  have hspace : escaped quotePath ' ' = [' '] := by cases quotePath <;> rfl
  have hb : escaped quotePath 'b' = ['b'] := by cases quotePath <;> rfl
  have hslash : escaped quotePath '/' = ['/'] := by cases quotePath <;> rfl
  simp [hspace, hb, hslash]

/-- A quote in a written text stands behind a backslash, so no text between
quotes goes on with a quote of its own. -/
theorem not_cons_quote_escaped {cs u : List Char}
    (h : cs.flatMap (escaped quotePath) ++ ['"'] = '"' :: u) : u = [] := by
  match cs with
  | [] => simpa using h.symm
  | d :: cs =>
    rw [List.flatMap_cons] at h
    cases hplain : isPlain quotePath d with
    | true =>
      rw [escaped_of_isPlain hplain] at h
      have hd : d = '"' := (List.cons.inj h).1
      subst hd
      cases quotePath <;> exact absurd hplain (by decide)
    | false =>
      obtain ⟨ds, heq, -⟩ := escaped_of_not_isPlain hplain
      rw [heq] at h
      exact absurd (List.cons.inj h).1 (by decide)

/-- A text is cut behind a first character that is no space. -/
theorem cut_cons {c : Char} {cs l r : List Char} (hc : c ≠ ' ') (h : c :: cs = l ++ ' ' :: r) :
    ∃ l', cs = l' ++ ' ' :: r := by
  match l with
  | [] => exact absurd (List.cons.inj h).1 hc
  | _ :: l' => exact ⟨l', (List.cons.inj h).2⟩

/-- A name that needs no quotes can be cut where the path has a side mark in
it. -/
theorem cut_plain_iff {p : RepoPath} (hplain : ∀ c ∈ p.chars, isPlain quotePath c = true) :
    (∃ l r, 'b' :: '/' :: p.chars = l ++ ' ' :: r ∧ HeaderLine.isSide 'b' r = true)
      ↔ p.HasSideMark := by
  simp only [HeaderLine.isSide_iff (show 'b' ≠ '"' by decide)]
  constructor
  · rintro ⟨l, r, h, d, rest, hr⟩
    obtain ⟨l₁, h₁⟩ := cut_cons (by decide) h
    obtain ⟨l₂, h₂⟩ := cut_cons (by decide) h₁
    obtain rfl | rfl := hr
    · exact ⟨l₂, d :: rest, by rw [h₂]; simp⟩
    · -- an unquoted path has no quote in it
      have hmem : '"' ∈ p.chars := by rw [h₂]; simp
      have hquote := hplain _ hmem
      cases quotePath <;> exact absurd hquote (by decide)
  · rintro ⟨s, t, h⟩
    match t with
    | [] =>
      obtain ⟨c, hlast, hc⟩ := p.getLast?_chars
      rw [← h] at hlast
      exact absurd (by simpa using hlast.symm) hc
    | d :: t =>
      exact ⟨'b' :: '/' :: s, 'b' :: '/' :: d :: t, by rw [← h]; simp, d, t, Or.inl rfl⟩

/-- A name between quotes can be cut there as well. -/
theorem cut_quoted_iff (p : RepoPath) :
    (∃ l r, '"' :: 'b' :: '/' :: p.chars.flatMap (escaped quotePath) ++ ['"'] = l ++ ' ' :: r
        ∧ HeaderLine.isSide 'b' r = true)
      ↔ p.HasSideMark := by
  simp only [HeaderLine.isSide_iff (show 'b' ≠ '"' by decide)]
  constructor
  · rintro ⟨l, r, h, d, rest, hr⟩
    obtain ⟨l₁, h₁⟩ := cut_cons (by decide) h
    obtain ⟨l₂, h₂⟩ := cut_cons (by decide) h₁
    obtain ⟨l₃, h₃⟩ := cut_cons (by decide) h₂
    -- what is behind the cut ends in the closing quote
    obtain rfl | ⟨r', x, rfl⟩ := List.eq_nil_or_concat r
    · simp at hr
    rw [List.concat_eq_append] at hr
    have hend : p.chars.flatMap (escaped quotePath) ++ ['"'] = (l₃ ++ ' ' :: r') ++ [x] := by
      simpa using h₃
    obtain ⟨hflat, hx⟩ := List.append_inj' hend rfl
    obtain ⟨m, t, hchars, rfl⟩ := cut_escaped hflat
    obtain rfl : '"' = x := by simpa using hx
    obtain hr | hr := hr
    · obtain ⟨t₁, rfl, hu₁⟩ := cons_escaped (by decide) (by decide) hr
      obtain ⟨t₂, rfl, -⟩ := cons_escaped (by decide) (by decide) hu₁.symm
      exact ⟨m, t₂, by rw [hchars]; simp⟩
    · cases not_cons_quote_escaped hr
  · rintro ⟨s, t, h⟩
    obtain ⟨d, rest, hd⟩ := List.exists_cons_of_ne_nil
      (List.append_ne_nil_of_right_ne_nil (t.flatMap (escaped quotePath))
        (List.cons_ne_nil '"' []))
    refine ⟨'"' :: 'b' :: '/' :: s.flatMap (escaped quotePath), 'b' :: '/' :: d :: rest, ?_, d,
      rest, Or.inl rfl⟩
    have hchars : p.chars = s ++ ' ' :: 'b' :: '/' :: t := by rw [← h]; simp
    rw [hchars, List.flatMap_append, escaped_sideMark, ← hd]
    simp

/-- **The name of the new side can itself be cut exactly when the path has a
side mark in it.** -/
theorem cut_sideName_iff (p : RepoPath) :
    (∃ l r, sideName quotePath 'b' p = l ++ ' ' :: r ∧ HeaderLine.isSide 'b' r = true)
      ↔ p.HasSideMark := by
  rw [sideName_eq]
  split
  case isTrue hplain => exact cut_plain_iff (List.all_eq_true.mp hplain)
  case isFalse => exact cut_quoted_iff p

/-- The names of both sides fit on one line. -/
theorem inName_sideNames (p q : RepoPath) :
    ∀ c ∈ sideName quotePath 'a' p ++ ' ' :: sideName quotePath 'b' q,
      HeaderLine.inName c = true := by
  intro c hc
  rcases List.mem_append.1 hc with hc | hc
  · exact inName_of_mem_sideName (by decide) p c hc
  rcases List.mem_cons.1 hc with rfl | hc
  · decide
  · exact inName_of_mem_sideName (by decide) q c hc

/-- **The names of both sides are read back** where the new path has no side
mark in it. -/
theorem twoNames?_sideName (p q : RepoPath) (h : ¬ q.HasSideMark) :
    HeaderLine.twoNames?
        (sideName quotePath 'a' p ++ ' ' :: sideName quotePath 'b' q ++ ['\n'])
      = some (sideName quotePath 'a' p, sideName quotePath 'b' q) := by
  refine HeaderLine.twoNames?_eq (isSide_sideName (by decide) p) (inName_sideNames p q)
    (isSide_sideName (by decide) q) fun l r hcut => ?_
  rw [← Bool.not_eq_true]
  exact fun hr => h ((cut_sideName_iff q).1 ⟨l, r, hcut, hr⟩)

/-- **The name of the new side is misread** where the new path has a side
mark in it. -/
theorem twoNames?_sideName_of_hasSideMark (p q : RepoPath) (h : q.HasSideMark) :
    ∃ a' b', HeaderLine.twoNames?
        (sideName quotePath 'a' p ++ ' ' :: sideName quotePath 'b' q ++ ['\n'])
      = some (a', b') ∧ b' ≠ sideName quotePath 'b' q := by
  obtain ⟨l, r, hcut, hr⟩ := (@cut_sideName_iff quotePath q).2 h
  exact HeaderLine.twoNames?_ne (isSide_sideName (by decide) p) (inName_sideNames p q) hcut hr

end RepoPath

end ChangeReview
