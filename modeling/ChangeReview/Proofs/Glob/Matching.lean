import Mathlib.Data.List.Forall2
import Mathlib.Data.List.Infix
import ChangeReview.Proofs.Glob.Bracket

/-!
# Matching is cutting the name

A pattern matches a name when the name can be cut into pieces, one for each
token of the pattern, such that each token stands for its piece (`Spells`).
That says nothing of how the pieces are found. The matcher does not look for
them at all: it keeps the ends of the name that can be left behind the tokens
so far, and of these a star only looks at the longest.

This is enough because all ends that are kept are ends of one another
(`IsLadder`), so that what can be left behind a star is left of the longest
one already. One token keeps it that way and leaves what it should
(`mem_advance`, `IsLadder.advance`), and by induction so do all of them
(`mem_foldl_advance`).

The tokens of a pattern are told apart in the same spirit: `IsCut` says which
ones a pattern is cut into, without saying how, and there is one way to do so
(`isCut_iff`).

Two things are then plain to see. A pattern without brackets has the same
tokens whatever stands behind it (`isMatch_append`). And a pattern that starts
with a character standing for itself matches only names that start with it, so
that one with any other than a slash there matches no absolute path
(`IsRelative.not_isMatch`).
-/

namespace ChangeReview.Glob

/-! ## Tokens and their pieces -/

/-- **The pieces that a token stands for.** A star stands for any piece, be it
empty, and the other tokens for pieces of one character. -/
def Token.Suits : Token → List Char → Prop
  | .anyRun, _ => True
  | .anyOne, piece => ∃ c, piece = [c]
  | .oneOf negated ranges, piece =>
    ∃ c, piece = [c] ∧ ((∃ r ∈ ranges, r.1 ≤ c ∧ c ≤ r.2) ↔ negated = false)
  | .literal c, piece => piece = [c]

/-- **Tokens spell a name** that can be cut into pieces, one for each of
them. -/
def Spells (ts : List Token) (name : List Char) : Prop :=
  ∃ pieces, List.Forall₂ Token.Suits ts pieces ∧ pieces.flatten = name

@[simp] theorem spells_nil {name : List Char} : Spells [] name ↔ name = [] := by
  constructor
  · rintro ⟨pieces, h, rfl⟩
    cases h
    rfl
  · rintro rfl
    exact ⟨[], .nil, rfl⟩

theorem spells_cons {t : Token} {ts : List Token} {name : List Char} :
    Spells (t :: ts) name
      ↔ ∃ piece rest, name = piece ++ rest ∧ t.Suits piece ∧ Spells ts rest := by
  constructor
  · rintro ⟨pieces, h, rfl⟩
    cases h with
    | cons ht hts => exact ⟨_, _, rfl, ht, _, hts, rfl⟩
  · rintro ⟨piece, rest, rfl, ht, pieces, hts, rfl⟩
    exact ⟨piece :: pieces, .cons ht hts, rfl⟩

/-- **Tokens behind others spell what the others leave.** -/
theorem spells_append {ts ts' : List Token} {name : List Char} :
    Spells (ts ++ ts') name ↔ ∃ u w, name = u ++ w ∧ Spells ts u ∧ Spells ts' w := by
  induction ts generalizing name with
  | nil => simp
  | cons t ts ih =>
    rw [List.cons_append, spells_cons]
    simp only [spells_cons, ih]
    constructor
    · rintro ⟨piece, rest, rfl, ht, u, w, rfl, hu, hw⟩
      exact ⟨piece ++ u, w, (List.append_assoc ..).symm, ⟨piece, u, rfl, ht, hu⟩, hw⟩
    · rintro ⟨u, w, rfl, ⟨piece, rest, rfl, ht, hrest⟩, hw⟩
      exact ⟨piece, rest ++ w, List.append_assoc .., ht, rest, w, rfl, hrest, hw⟩

/-- A token other than a star stands for the characters that it accepts. -/
theorem Token.suits_iff {t : Token} (ht : t ≠ .anyRun) {piece : List Char} :
    t.Suits piece ↔ ∃ c, piece = [c] ∧ t.accepts c = true := by
  cases t with
  | anyRun => exact absurd rfl ht
  | anyOne => simp [Suits, accepts]
  | oneOf negated ranges =>
    refine exists_congr fun c => and_congr_right fun _ => ?_
    cases negated <;> simp [accepts]
  | literal d => simp [Suits, accepts]

/-- A token other than a star takes the first character. -/
theorem spells_cons_of_ne {t : Token} (ht : t ≠ .anyRun) {ts : List Token} {name : List Char} :
    Spells (t :: ts) name
      ↔ ∃ c rest, name = c :: rest ∧ t.accepts c = true ∧ Spells ts rest := by
  rw [spells_cons]
  constructor
  · rintro ⟨piece, rest, rfl, hpiece, hrest⟩
    obtain ⟨c, rfl, hc⟩ := (Token.suits_iff ht).mp hpiece
    exact ⟨c, rest, rfl, hc, hrest⟩
  · rintro ⟨c, rest, rfl, hc, hrest⟩
    exact ⟨[c], rest, rfl, (Token.suits_iff ht).mpr ⟨c, rfl, hc⟩, hrest⟩

/-- A star takes whatever stands in front of an end. -/
theorem spells_anyRun {ts : List Token} {name : List Char} :
    Spells (.anyRun :: ts) name ↔ ∃ w, w <:+ name ∧ Spells ts w := by
  rw [spells_cons]
  constructor
  · rintro ⟨piece, w, rfl, -, hw⟩
    exact ⟨w, List.suffix_append piece w, hw⟩
  · rintro ⟨w, ⟨piece, rfl⟩, hw⟩
    exact ⟨piece, w, rfl, trivial, hw⟩

/-! ## The matcher -/

/-- Whether texts are ends of one another, the longer ones first. -/
def IsLadder (left : List (List Char)) : Prop := left.Pairwise fun l r => r <:+ l

/-- The ends of a text are what the standard library calls its tails. -/
theorem ends_eq_tails (cs : List Char) : ends cs = cs.tails := by
  induction cs with
  | nil => rfl
  | cons c cs ih => rw [ends, List.tails_cons, ih]

theorem isLadder_ends (cs : List Char) : IsLadder (ends cs) := by
  induction cs with
  | nil => exact List.pairwise_singleton _ _
  | cons c cs ih =>
    refine List.pairwise_cons.mpr ⟨fun r hr => ?_, ih⟩
    rw [ends_eq_tails, List.mem_tails] at hr
    exact hr.trans (List.suffix_cons c cs)

/-- What a token for one character leaves of a text. -/
def Token.rest? (t : Token) : List Char → Option (List Char)
  | [] => none
  | c :: rest => if t.accepts c then some rest else none

theorem advance_eq_filterMap {t : Token} (ht : t ≠ .anyRun) (left : List (List Char)) :
    advance left t = left.filterMap t.rest? := by
  cases t with
  | anyRun => exact absurd rfl ht
  | anyOne | oneOf negated ranges | literal c => rfl

theorem Token.rest?_eq_some_iff {t : Token} {l r : List Char} :
    t.rest? l = some r ↔ ∃ c, l = c :: r ∧ t.accepts c = true := by
  cases l with
  | nil => simp [rest?]
  | cons d l =>
    rw [rest?, Option.ite_none_right_eq_some]
    constructor
    · rintro ⟨hd, ⟨⟩⟩
      exact ⟨d, rfl, hd⟩
    · rintro ⟨c, ⟨⟩, hc⟩
      exact ⟨hc, rfl⟩

/-- **What is left behind a token** of texts that are ends of one another. -/
theorem mem_advance {left : List (List Char)} (hleft : IsLadder left) {t : Token} {r : List Char} :
    r ∈ advance left t ↔ ∃ l ∈ left, ∃ piece, l = piece ++ r ∧ t.Suits piece := by
  by_cases ht : t = .anyRun
  · subst ht
    cases left with
    | nil => simp [advance]
    | cons l left =>
      show r ∈ ends l ↔ _
      rw [ends_eq_tails, List.mem_tails]
      constructor
      · rintro ⟨piece, rfl⟩
        exact ⟨_, .head _, piece, rfl, trivial⟩
      · -- an end of one of the others is an end of the longest
        rintro ⟨_, hl, piece, rfl, -⟩
        rcases List.mem_cons.mp hl with rfl | hl
        · exact List.suffix_append piece r
        · exact (List.suffix_append piece r).trans ((List.pairwise_cons.mp hleft).1 _ hl)
  · rw [advance_eq_filterMap ht, List.mem_filterMap]
    refine exists_congr fun l => and_congr_right fun _ => ?_
    rw [Token.rest?_eq_some_iff]
    simp only [Token.suits_iff ht]
    constructor
    · rintro ⟨c, rfl, hc⟩
      exact ⟨[c], rfl, c, rfl, hc⟩
    · rintro ⟨_, rfl, c, rfl, hc⟩
      exact ⟨c, rfl, hc⟩

/-- What is left behind a token are ends of one another again. -/
theorem IsLadder.advance {left : List (List Char)} (hleft : IsLadder left) (t : Token) :
    IsLadder (advance left t) := by
  by_cases ht : t = .anyRun
  · subst ht
    cases left with
    | nil => exact List.Pairwise.nil
    | cons l left => exact isLadder_ends l
  · rw [advance_eq_filterMap ht]
    refine List.Pairwise.filterMap _ (fun l l' hl r hr r' hr' => ?_) hleft
    obtain ⟨c, rfl, -⟩ := Token.rest?_eq_some_iff.mp hr
    obtain ⟨c', rfl, -⟩ := Token.rest?_eq_some_iff.mp hr'
    rcases List.suffix_cons_iff.mp hl with hsame | hl
    · rw [(List.cons.inj hsame).2]
    · exact (List.suffix_cons c' r').trans hl

/-- **What is left behind some tokens** is what they spell a beginning for. -/
theorem mem_foldl_advance {left : List (List Char)} (hleft : IsLadder left) {ts : List Token}
    {r : List Char} :
    r ∈ ts.foldl Glob.advance left ↔ ∃ l ∈ left, ∃ u, l = u ++ r ∧ Spells ts u := by
  induction ts generalizing left with
  | nil => simp
  | cons t ts ih =>
    rw [List.foldl_cons, ih (hleft.advance t)]
    simp only [mem_advance hleft, spells_cons]
    constructor
    · rintro ⟨_, ⟨_, hl, piece, rfl, ht⟩, u, rfl, hu⟩
      exact ⟨_, hl, piece ++ u, (List.append_assoc ..).symm, piece, u, rfl, ht, hu⟩
    · rintro ⟨_, hl, _, rfl, piece, u, rfl, ht, hu⟩
      exact ⟨u ++ r, ⟨_, hl, piece, List.append_assoc .., ht⟩, u, rfl, hu⟩

/-- **The matcher finds out whether the tokens of a pattern spell a name.** -/
theorem isMatch_iff {pattern name : String} :
    isMatch pattern name = true ↔ Spells (tokens pattern.toList) name.toList := by
  have hname : IsLadder [name.toList] := List.pairwise_singleton _ _
  unfold isMatch
  rw [List.any_eq_true]
  constructor
  · rintro ⟨r, hr, hnil⟩
    obtain ⟨l, hl, u, hu, hspells⟩ := (mem_foldl_advance hname).mp hr
    rw [List.mem_singleton.mp hl, List.isEmpty_iff.mp hnil, List.append_nil] at hu
    exact hu ▸ hspells
  · intro h
    exact ⟨[], (mem_foldl_advance hname).mpr ⟨_, .head _, _, (List.append_nil _).symm, h⟩, rfl⟩

/-! ## The tokens of a pattern -/

/-- A character that stands for itself at the start of a pattern. -/
def IsPlain (c : Char) : Prop := c ≠ '*' ∧ c ≠ '?' ∧ c ≠ '['

instance (c : Char) : Decidable (IsPlain c) := inferInstanceAs (Decidable (_ ∧ _))

theorem tokens_cons_of_isPlain {c : Char} (h : IsPlain c) (rest : List Char) :
    tokens (c :: rest) = .literal c :: tokens rest := by
  obtain ⟨hstar, hmark, hbracket⟩ := h
  rw [tokens]
  · exact fun h => absurd h hstar
  · exact fun h => absurd h hmark
  · exact fun h => absurd h hbracket

/-- **A pattern is cut into tokens** from left to right. A bracket that is not
closed is a character like any other. -/
inductive IsCut : List Char → List Token → Prop
  | nil : IsCut [] []
  | anyRun {rest : List Char} {ts : List Token} (h : IsCut rest ts) :
      IsCut ('*' :: rest) (.anyRun :: ts)
  | anyOne {rest : List Char} {ts : List Token} (h : IsCut rest ts) :
      IsCut ('?' :: rest) (.anyOne :: ts)
  | bracket {stuff rest : List Char} {ts : List Token} (hstuff : IsBracketText stuff)
      (h : IsCut rest ts) : IsCut ('[' :: stuff ++ ']' :: rest) (setOfText stuff :: ts)
  | literal {c : Char} {rest : List Char} {ts : List Token} (hrun : c ≠ '*') (hone : c ≠ '?')
      (hopen : c = '[' → ∀ stuff after, IsBracketText stuff → rest ≠ stuff ++ ']' :: after)
      (h : IsCut rest ts) : IsCut (c :: rest) (.literal c :: ts)

theorem tokens_bracket {stuff : List Char} (hstuff : IsBracketText stuff) (rest : List Char) :
    tokens ('[' :: stuff ++ ']' :: rest) = setOfText stuff :: tokens rest := by
  have hbracket : bracket? (stuff ++ ']' :: rest) = some (stuff, rest) :=
    bracket?_eq_some_iff.mpr ⟨hstuff, rfl⟩
  rw [List.cons_append, tokens]
  split
  · next h => cases h.symm.trans hbracket
  · next h =>
    obtain ⟨rfl, rfl⟩ := Prod.mk.inj (Option.some.inj (h.symm.trans hbracket))
    rw [Token.ofBracket_eq]

theorem tokens_open {rest : List Char}
    (hopen : ∀ stuff after, IsBracketText stuff → rest ≠ stuff ++ ']' :: after) :
    tokens ('[' :: rest) = .literal '[' :: tokens rest := by
  rw [tokens]
  split
  · rfl
  · next stuff after h =>
    obtain ⟨hstuff, hrest⟩ := bracket?_eq_some_iff.mp h
    exact absurd hrest (hopen stuff after hstuff)

/-- **There is one way to cut a pattern into tokens.** -/
theorem isCut_iff {cs : List Char} {ts : List Token} : IsCut cs ts ↔ ts = tokens cs := by
  constructor
  · intro h
    induction h with
    | nil => rw [tokens]
    | anyRun h ih => rw [tokens, ih]
    | anyOne h ih => rw [tokens, ih]
    | bracket hstuff h ih => rw [tokens_bracket hstuff, ih]
    | @literal c rest ts hrun hone hopen h ih =>
      by_cases hc : c = '['
      · subst hc
        rw [tokens_open (hopen rfl), ih]
      · rw [tokens_cons_of_isPlain ⟨hrun, hone, hc⟩, ih]
  · rintro rfl
    fun_induction tokens cs with
    | case1 => exact .nil
    | case2 rest ih => exact .anyRun ih
    | case3 rest ih => exact .anyOne ih
    | case4 rest hopen ih =>
      refine .literal (by decide) (by decide) (fun _ stuff after hstuff hrest => ?_) ih
      cases hopen.symm.trans (bracket?_eq_some_iff.mpr ⟨hstuff, hrest⟩)
    | case5 rest stuff after hclosed _ ih =>
      obtain ⟨hstuff, rfl⟩ := bracket?_eq_some_iff.mp hclosed
      rw [Token.ofBracket_eq]
      exact .bracket hstuff ih
    | case6 c rest hrun hone hbracket ih => exact .literal hrun hone (fun h => absurd h hbracket) ih

/-! ## Patterns put together -/

/-- A pattern without brackets keeps its tokens whatever stands behind it. -/
theorem tokens_append {cs : List Char} (h : '[' ∉ cs) (ds : List Char) :
    tokens (cs ++ ds) = tokens cs ++ tokens ds := by
  induction cs with
  | nil => rw [tokens]; rfl
  | cons c cs ih =>
    obtain ⟨hc, hcs⟩ := List.ne_and_not_mem_of_not_mem_cons h
    rw [List.cons_append]
    by_cases hrun : c = '*'
    · rw [hrun, tokens, tokens, ih hcs, List.cons_append]
    · by_cases hone : c = '?'
      · rw [hone, tokens, tokens, ih hcs, List.cons_append]
      · have hplain : IsPlain c := ⟨hrun, hone, hc.symm⟩
        rw [tokens_cons_of_isPlain hplain, tokens_cons_of_isPlain hplain, ih hcs, List.cons_append]

/-- **A pattern behind one without brackets** matches what the other leaves. -/
theorem isMatch_append {front : String} (h : '[' ∉ front.toList) (back name : String) :
    isMatch (front ++ back) name = true
      ↔ ∃ u w, name = u ++ w ∧ isMatch front u = true ∧ isMatch back w = true := by
  simp only [isMatch_iff]
  rw [String.toList_append, tokens_append h, spells_append]
  constructor
  · rintro ⟨u, w, hname, hu, hw⟩
    refine ⟨.ofList u, .ofList w, ?_, ?_, ?_⟩
    · rw [← String.ofList_append, ← hname, String.ofList_toList]
    · rwa [String.toList_ofList]
    · rwa [String.toList_ofList]
  · rintro ⟨u, w, rfl, hu, hw⟩
    exact ⟨u.toList, w.toList, String.toList_append, hu, hw⟩

/-! ## Patterns and the start of a name -/

/-- **A pattern that starts with a character standing for itself** matches only
names that start with it. -/
theorem head?_of_isMatch {pattern name : String} {c : Char} (hc : IsPlain c)
    (hpattern : pattern.toList.head? = some c) (h : isMatch pattern name) :
    name.toList.head? = some c := by
  obtain ⟨rest, hrest⟩ := List.head?_eq_some_iff.mp hpattern
  rw [isMatch_iff, hrest, tokens_cons_of_isPlain hc] at h
  have hne : Token.literal c ≠ .anyRun := nofun
  obtain ⟨d, more, hname, hd, -⟩ := (spells_cons_of_ne hne).mp h
  obtain rfl : d = c := of_decide_eq_true hd
  rw [hname]
  rfl

/-- A pattern that starts with a character standing for itself and no slash. -/
def IsRelative (pattern : String) : Prop :=
  ∃ c, pattern.toList.head? = some c ∧ IsPlain c ∧ c ≠ '/'

/-- Such a pattern matches no name that starts with a slash. -/
theorem IsRelative.not_isMatch {pattern name : String} (h : IsRelative pattern)
    (hname : name.toList.head? = some '/') : isMatch pattern name = false := by
  obtain ⟨c, hpattern, hplain, hc⟩ := h
  refine Bool.eq_false_iff.mpr fun hmatch => hc ?_
  exact Option.some.inj ((head?_of_isMatch hplain hpattern hmatch).symm.trans hname)

end ChangeReview.Glob
