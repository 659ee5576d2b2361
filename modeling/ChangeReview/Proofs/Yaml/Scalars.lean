import ChangeReview.Yaml.Token.Plain
import ChangeReview.Yaml.Token.Quoted

/-!
# Words and quoted texts

Two kinds of scalars are read back as they are written. A word of letters is,
up to the colon behind it. And so is any text on one line, between single
quotes: there is nothing to look out for in it but the quotes, which are
written twice (`Quoted.double`).

The reader of a quoted text holds back blanks, since they would vanish before a
line end. The induction is therefore over texts behind a gap, and what carries
it is that a gap within a line only grows, and comes to all the blanks in it
(`Quoted.Gap.IsInline.blank`).
-/

namespace ChangeReview.Yaml

/-! ## Characters -/

/-- An ASCII character that can be seen, or a space. -/
def IsPrintable (c : Char) : Prop := ' ' ≤ c ∧ c ≤ '~'

/-- A small letter of ASCII. -/
def IsLetter (c : Char) : Prop := 'a' ≤ c ∧ c ≤ 'z'

instance (c : Char) : Decidable (IsPrintable c) := inferInstanceAs (Decidable (_ ∧ _))

instance (c : Char) : Decidable (IsLetter c) := inferInstanceAs (Decidable (_ ∧ _))

variable {c d : Char}

theorem IsPrintable.ne (h : IsPrintable c) (hd : ¬ IsPrintable d) : c ≠ d :=
  fun heq => hd (heq ▸ h)

theorem IsLetter.ne (h : IsLetter c) (hd : ¬ IsLetter d) : c ≠ d := fun heq => hd (heq ▸ h)

theorem IsLetter.isPrintable (h : IsLetter c) : IsPrintable c :=
  ⟨Char.le_trans (by decide) h.1, Char.le_trans h.2 (by decide)⟩

/-- Nothing that can be seen ends a line, -/
theorem IsPrintable.isBreak (h : IsPrintable c) : isBreak c = false := by
  simp [Yaml.isBreak, h.ne (d := '\n') (by decide), h.ne (d := '\u2028') (by decide),
    h.ne (d := '\u2029') (by decide)]

/-- and it may stand in a document. -/
theorem IsPrintable.isAllowed (h : IsPrintable c) : isAllowed c = true := by
  have hlow : 0x20 ≤ c.toNat := h.1
  have hhigh : c.toNat ≤ 0x7E := h.2
  simp [Yaml.isAllowed, hlow, hhigh]

/-- In a text of printable lines no line end is made alike another. -/
theorem normalize_eq_self {cs : List Char} (h : ∀ c ∈ cs, IsPrintable c ∨ c = '\n') :
    normalize cs = cs := by
  induction cs with
  | nil => rfl
  | cons c cs ih =>
    obtain ⟨hc, hcs⟩ := List.forall_mem_cons.mp h
    have hne : c ≠ '\r' ∧ c ≠ '\u0085' := by
      rcases hc with hc | rfl
      · exact ⟨hc.ne (by decide), hc.ne (by decide)⟩
      · decide
    rw [normalize, ih hcs, if_neg (not_or.mpr hne)]
    exact fun _ heq _ => hne.1 heq

/-! ## Words -/

/-- A word is read up to the colon behind it. -/
theorem Plain.read_word {word : List Char} (hword : ∀ c ∈ word, IsLetter c) {rest : List Char}
    (hrest : atBlank rest = true) :
    read false 0 .none (word ++ ':' :: rest) = (word, word.length) := by
  induction word with
  | nil =>
    rw [List.nil_append, read]
    simp [isBreak, ends, colonEnds, hrest]
  | cons c word ih =>
    obtain ⟨hc, hword⟩ := List.forall_mem_cons.mp hword
    rw [List.cons_append, read]
    simp [hc.isPrintable.isBreak, ends, ih hword, hc.ne (d := ' ') (by decide),
      hc.ne (d := '\t') (by decide), hc.ne (d := '#') (by decide), hc.ne (d := ':') (by decide),
      Gap.reaches, Gap.text]

/-! ## Texts between single quotes -/

namespace Quoted

/-- A text as it is written between single quotes. -/
def double (cs : List Char) : List Char :=
  cs.flatMap fun c => if c = '\'' then ['\'', '\''] else [c]

theorem mem_double {cs : List Char} : c ∈ double cs ↔ c ∈ cs := by
  have hone (d : Char) : c ∈ (if d = '\'' then ['\'', '\''] else [d]) ↔ c = d := by
    split
    · next h => simp [h]
    · exact List.mem_singleton
  unfold double
  simp only [List.mem_flatMap, hone, exists_eq_right']

/-- The gap stands within a line. -/
def Gap.IsInline : Gap → Prop
  | .none | .blanks _ => True
  | _ => False

theorem Gap.IsInline.blank {gap : Gap} (h : gap.IsInline) (c : Char) :
    (gap.blank c).IsInline ∧ (gap.blank c).text = gap.text ++ [c] := by
  cases gap with
  | none => exact ⟨trivial, rfl⟩
  | blanks cs => exact ⟨trivial, rfl⟩
  | _ => cases h

variable {rest : List Char}

theorem read_blank (h : isBlank c = true) (gap : Gap) :
    read false 0 gap (c :: rest)
      = (read false 0 (gap.blank c) rest).map fun (text, n) => (text, n + 1) := by
  rw [read, if_pos h]

theorem read_other (hblank : isBlank c = false) (hbreak : isBreak c = false) (hquote : c ≠ '\'')
    (gap : Gap) : read false 0 gap (c :: rest)
      = (read false 0 .none rest).map fun (text, n) => (gap.text ++ c :: text, n + 1) := by
  rw [read]
  simp [hblank, hbreak, hquote]

theorem read_quotes (gap : Gap) : read false 0 gap ('\'' :: '\'' :: rest)
    = (read false 0 .none rest).map fun (text, n) => (gap.text ++ '\'' :: text, n + 2) := by
  rw [read]
  simp [isBlank, isBreak, read]
  rfl

theorem read_quote (h : rest.head? ≠ some '\'') (gap : Gap) :
    read false 0 gap ('\'' :: rest) = some (gap.text, 1) := by
  rw [read]
  simp [isBlank, isBreak, h]

/-- **A text on one line is read back** from between its quotes, all blanks in
it included. -/
theorem read_double {cs : List Char} (hcs : ∀ c ∈ cs, isBreak c = false)
    (hrest : rest.head? ≠ some '\'') {gap : Gap} (hgap : gap.IsInline) :
    read false 0 gap (double cs ++ '\'' :: rest)
      = some (gap.text ++ cs, (double cs).length + 1) := by
  induction cs generalizing gap with
  | nil =>
    rw [List.append_nil]
    exact read_quote hrest gap
  | cons c cs ih =>
    obtain ⟨hbreak, htail⟩ := List.forall_mem_cons.mp hcs
    have hnone : read false 0 .none (double cs ++ '\'' :: rest)
        = some (cs, (double cs).length + 1) :=
      ih htail (show Gap.none.IsInline from trivial)
    by_cases hquote : c = '\''
    · subst hquote
      show read false 0 gap ('\'' :: '\'' :: (double cs ++ '\'' :: rest)) = _
      rw [read_quotes, hnone]
      rfl
    · have hdouble : double (c :: cs) = c :: double cs := by
        unfold double
        rw [List.flatMap_cons, if_neg hquote]
        rfl
      rw [hdouble, List.cons_append]
      by_cases hblank : isBlank c = true
      · obtain ⟨hinline, htext⟩ := hgap.blank c
        rw [read_blank hblank, ih htail hinline, htext, List.append_assoc]
        rfl
      · rw [read_other (Bool.not_eq_true _ ▸ hblank) hbreak hquote, hnone]
        rfl

end Quoted

end ChangeReview.Yaml
