import Mathlib.Data.List.TakeDrop
import Mathlib.Data.List.TakeWhile
import ChangeReview.Proofs.Json.Grammar

/-!
# Numbers are read as they are spelled

A number has no closing mark: its reader takes every character that can
still belong to it. So what is read spells the number that is read, but a
spelling is read in full only where something stands behind it that cannot
belong to a number. Behind a value of a document that is so
(`Json.IsEnd`).
-/

namespace ChangeReview.Json

/-- What can stand behind a value of a document: nothing, or a text that
starts with a blank, a comma, or a closing bracket or brace. -/
def IsEnd (rest : List Char) : Prop :=
  ∀ c ∈ rest.head?, isBlank c = true ∨ c ∈ [',', ']', '\x7d']

/-- What starts no fraction, no exponent, and goes on with no digits. -/
theorem IsEnd.head_ne {rest : List Char} (h : IsEnd rest) :
    ∀ c ∈ rest.head?, isDigit c = false ∧ c ≠ '.' ∧ c ≠ 'e' ∧ c ≠ 'E' := by
  intro c hc
  have hcs := h c hc
  simp only [isBlank, Bool.or_eq_true, beq_iff_eq, List.mem_cons, List.not_mem_nil, or_false]
    at hcs
  rcases hcs with (((rfl | rfl) | rfl) | rfl) | rfl | rfl | rfl <;> decide

/-- Digits are read up to what is no digit. -/
theorem span_isDigit {ds rest : List Char} (hds : ∀ d ∈ ds, isDigit d = true)
    (hrest : ∀ c ∈ rest.head?, isDigit c = false) :
    (ds ++ rest).span isDigit = (ds, rest) := by
  have htake : rest.takeWhile isDigit = [] := by
    cases rest with
    | nil => rfl
    | cons c rest => exact List.takeWhile_cons_of_neg (by simp [hrest c rfl])
  have hdrop : rest.dropWhile isDigit = rest := by
    cases rest with
    | nil => rfl
    | cons c rest => exact List.dropWhile_cons_of_neg (by simp [hrest c rfl])
  rw [List.span_eq_takeWhile_dropWhile, List.takeWhile_append_of_pos hds,
    List.dropWhile_append_of_pos hds, htake, hdrop, List.append_nil]

theorem of_span_isDigit {cs ds left : List Char} (h : cs.span isDigit = (ds, left)) :
    cs = ds ++ left ∧ ∀ d ∈ ds, isDigit d = true := by
  rw [List.span_eq_takeWhile_dropWhile] at h
  cases h
  exact ⟨List.takeWhile_append_dropWhile.symm, fun d hd => List.mem_takeWhile_imp hd⟩

/-! ## The parts of a number -/

theorem whole_of_whole? {cs w left : List Char} (h : whole? cs = some (w, left)) :
    cs = w ++ left ∧ Whole w := by
  unfold whole? at h
  split at h
  · cases h
    exact ⟨rfl, .zero⟩
  · next c rest hzero =>
    split at h
    case isTrue hc =>
      obtain ⟨hcs, hds⟩ := of_span_isDigit (Option.some.inj h)
      refine ⟨hcs, ?_⟩
      cases w with
      | nil =>
        rw [List.nil_append] at hcs
        rw [List.span_eq_takeWhile_dropWhile, List.takeWhile_cons_of_pos hc] at h
        cases h
      | cons d w =>
        obtain ⟨rfl, -⟩ := List.cons.inj hcs
        exact .digits ⟨List.cons_ne_nil _ _, hds⟩ fun hd => hzero (Option.some.inj hd)
    case isFalse => cases h
  · cases h

theorem whole?_of_whole {w rest : List Char} (h : Whole w)
    (hrest : ∀ c ∈ rest.head?, isDigit c = false) : whole? (w ++ rest) = some (w, rest) := by
  cases h with
  | zero => rfl
  | digits hds hzero =>
    obtain ⟨hne, hds⟩ := hds
    cases w with
    | nil => exact absurd rfl hne
    | cons d ds =>
      have hd : d ≠ '0' := fun h => hzero (congrArg some h)
      rw [List.cons_append, whole?, if_pos (hds d (.head _)), ← List.cons_append,
        span_isDigit hds hrest]
      exact hd

theorem fraction_of_fraction? {cs f left : List Char}
    (h : (fraction? cs).getD ([], cs) = (f, left)) : cs = f ++ left ∧ Fraction f := by
  unfold fraction? at h
  split at h
  · next rest =>
    split at h
    · cases h
      exact ⟨rfl, .none⟩
    · next ds left' hempty hspan =>
      cases h
      obtain ⟨rfl, hds⟩ := of_span_isDigit hspan
      exact ⟨rfl, .some ⟨hempty, hds⟩⟩
  · cases h
    exact ⟨rfl, .none⟩

theorem fraction?_of_fraction {f rest : List Char} (h : Fraction f)
    (hrest : ∀ c ∈ rest.head?, isDigit c = false ∧ c ≠ '.') :
    (fraction? (f ++ rest)).getD ([], f ++ rest) = (f, rest) := by
  cases h with
  | none =>
    rw [List.nil_append, fraction?]
    · rfl
    · rintro left rfl
      exact (hrest '.' rfl).2 rfl
  | @some ds hds =>
    rw [List.cons_append, fraction?, span_isDigit hds.2 fun c hc => (hrest c hc).1]
    cases ds with
    | nil => exact absurd rfl hds.1
    | cons d ds => rfl

theorem exists_of_sign (cs : List Char) :
    ∃ signed more, sign cs = (signed, more) ∧ cs = signed ++ more ∧
      signed ∈ [[], ['+'], ['-']] := by
  unfold sign
  split <;> exact ⟨_, _, rfl, rfl, by simp⟩

/-- A sign is read, where there is one, since a digit is none. -/
theorem sign_append {signed ds : List Char} (hsigned : signed ∈ [[], ['+'], ['-']])
    (hds : IsDigits ds) (rest : List Char) :
    sign (signed ++ (ds ++ rest)) = (signed, ds ++ rest) := by
  simp only [List.mem_cons, List.not_mem_nil, or_false] at hsigned
  rcases hsigned with rfl | rfl | rfl
  · obtain ⟨hne, hds⟩ := hds
    cases ds with
    | nil => exact absurd rfl hne
    | cons d ds =>
      have hd := hds d (.head _)
      rw [List.nil_append, List.cons_append, sign]
      · rintro more h
        obtain ⟨rfl, -⟩ := List.cons.inj h
        cases hd
      · rintro more h
        obtain ⟨rfl, -⟩ := List.cons.inj h
        cases hd
  · rfl
  · rfl

theorem exponent_of_exponent? {cs e left : List Char}
    (h : (exponent? cs).getD ([], cs) = (e, left)) : cs = e ++ left ∧ Exponent e := by
  unfold exponent? at h
  split at h
  · next letter rest =>
    split at h
    case isTrue hletter =>
      obtain ⟨signed, more, hs, rfl, hsigned⟩ := exists_of_sign rest
      rw [hs] at h
      dsimp only at h
      split at h
      · cases h
        exact ⟨rfl, .none⟩
      · next ds left' hempty hspan =>
        cases h
        obtain ⟨rfl, hds⟩ := of_span_isDigit hspan
        exact ⟨by simp, .some hletter hsigned ⟨hempty, hds⟩⟩
    case isFalse =>
      cases h
      exact ⟨rfl, .none⟩
  · cases h
    exact ⟨rfl, .none⟩

theorem exponent?_of_exponent {e rest : List Char} (h : Exponent e)
    (hrest : ∀ c ∈ rest.head?, isDigit c = false ∧ c ≠ 'e' ∧ c ≠ 'E') :
    (exponent? (e ++ rest)).getD ([], e ++ rest) = (e, rest) := by
  cases h with
  | none =>
    rw [List.nil_append]
    cases rest with
    | nil => rfl
    | cons c rest =>
      obtain ⟨-, he, hE⟩ := hrest c rfl
      rw [exponent?, if_neg (by simp [he, hE])]
      rfl
  | @some letter signed ds hletter hsigned hds =>
    rw [List.append_assoc, List.cons_append, exponent?, if_pos hletter,
      sign_append hsigned hds]
    dsimp only
    rw [span_isDigit hds.2 fun c hc => (hrest c hc).1]
    cases ds with
    | nil => exact absurd rfl hds.1
    | cons d ds => simp

/-! ## Whole numbers -/

/-- What an unsigned number comes to: an integer where there is neither a
fraction nor an exponent, and else its literal. -/
def reading (w f e : List Char) : Nat ⊕ List Char :=
  if f = [] ∧ e = [] then .inl (Text.value w) else .inr (w ++ f ++ e)

theorem reading_pair (w f e left : List Char) :
    (if f = [] ∧ e = [] then (.inl (Text.value w), left) else (.inr (w ++ f ++ e), left))
      = (reading w f e, left) := by
  unfold reading
  split <;> rfl

theorem exists_of_magnitude? {cs left : List Char} {m : Nat ⊕ List Char}
    (h : magnitude? cs = some (m, left)) :
    ∃ w f e, cs = w ++ f ++ e ++ left ∧ Whole w ∧ Fraction f ∧ Exponent e ∧
      m = reading w f e := by
  unfold magnitude? at h
  obtain ⟨⟨w, afterWhole⟩, hwhole, hread⟩ := Option.map_eq_some_iff.mp h
  rcases hfraction : (fraction? afterWhole).getD ([], afterWhole) with ⟨f, afterFraction⟩
  rcases hexponent : (exponent? afterFraction).getD ([], afterFraction) with ⟨e, left'⟩
  simp only [hfraction, hexponent, reading_pair] at hread
  cases hread
  obtain ⟨rfl, hw⟩ := whole_of_whole? hwhole
  obtain ⟨rfl, hf⟩ := fraction_of_fraction? hfraction
  obtain ⟨rfl, he⟩ := exponent_of_exponent? hexponent
  exact ⟨w, f, e, by simp, hw, hf, he, rfl⟩

theorem magnitude?_eq {w f e rest : List Char} (hw : Whole w) (hf : Fraction f)
    (he : Exponent e) (hrest : IsEnd rest) :
    magnitude? (w ++ (f ++ (e ++ rest))) = some (reading w f e, rest) := by
  have hexponent : ∀ c ∈ (e ++ rest).head?, isDigit c = false ∧ c ≠ '.' := by
    cases he with
    | none => exact fun c hc => ⟨(hrest.head_ne c hc).1, (hrest.head_ne c hc).2.1⟩
    | some hletter _ _ =>
      intro c hc
      cases hc
      rcases hletter with rfl | rfl <;> decide
  have hfraction : ∀ c ∈ (f ++ (e ++ rest)).head?, isDigit c = false := by
    cases hf with
    | none => exact fun c hc => (hexponent c hc).1
    | some _ =>
      intro c hc
      cases hc
      decide
  unfold magnitude?
  rw [whole?_of_whole hw hfraction, Option.map_some]
  simp only [fraction?_of_fraction hf hexponent, reading_pair,
    exponent?_of_exponent he fun c hc => ⟨(hrest.head_ne c hc).1, (hrest.head_ne c hc).2.2⟩]

/-- What a number comes to, from its minus sign, if any, and what the unsigned
number comes to. -/
def ofReading (minus : List Char) : Nat ⊕ List Char → Json
  | .inl n => .int (if minus = [] then n else -n)
  | .inr literal => .real (String.ofList (minus ++ literal))

/-- **The shape of a number**: a minus sign or none, a whole part, a fraction
or none and an exponent or none; these decide what it comes to. -/
theorem number_iff {v : Json} {t : List Char} :
    Number v t ↔ ∃ minus w f e, minus ∈ [[], ['-']] ∧ Whole w ∧ Fraction f ∧ Exponent e ∧
      t = minus ++ (w ++ (f ++ e)) ∧ v = ofReading minus (reading w f e) := by
  constructor
  · intro h
    cases h with
    | nat hw => exact ⟨[], t, [], [], by simp, hw, .none, .none, by simp, rfl⟩
    | @neg w hw => exact ⟨['-'], w, [], [], by simp, hw, .none, .none, by simp, rfl⟩
    | @real minus w f e hminus hw hf he hfe =>
      refine ⟨minus, w, f, e, hminus, hw, hf, he, by simp, ?_⟩
      rw [reading, if_neg fun h => hfe (by simp [h.1, h.2]), ofReading]
      simp
  · rintro ⟨minus, w, f, e, hminus, hw, hf, he, rfl, rfl⟩
    by_cases hfe : f = [] ∧ e = []
    · obtain ⟨rfl, rfl⟩ := hfe
      simp only [List.mem_cons, List.not_mem_nil, or_false] at hminus
      rcases hminus with rfl | rfl
      · simpa [ofReading, reading] using Number.nat hw
      · simpa [ofReading, reading] using Number.neg hw
    · rw [reading, if_neg hfe, ofReading]
      have h := Number.real hminus hw hf he (by simpa using hfe)
      simpa only [List.append_assoc] using h

/-- A number is a sign and an unsigned number. -/
theorem number?_neg (cs : List Char) :
    number? ('-' :: cs) = (magnitude? cs).map fun (m, left) => (ofReading ['-'] m, left) := by
  rw [number?]
  congr 1
  funext ⟨m, left⟩
  cases m <;> rfl

theorem number?_nat {cs : List Char} (h : cs.head? ≠ some '-') :
    number? cs = (magnitude? cs).map fun (m, left) => (ofReading [] m, left) := by
  rw [number?]
  · congr 1
    funext ⟨m, left⟩
    cases m <;> rfl
  · rintro rest rfl
    exact h rfl

/-- What is read as a number spells it. -/
theorem number_of_number? {cs left : List Char} {v : Json} (h : number? cs = some (v, left)) :
    ∃ t, cs = t ++ left ∧ Number v t := by
  have hsign : ∃ minus rest, minus ∈ [[], ['-']] ∧ cs = minus ++ rest ∧
      (magnitude? rest).map (fun (m, left) => (ofReading minus m, left)) = some (v, left) := by
    by_cases hminus : cs.head? = some '-'
    · obtain ⟨rest, rfl⟩ := List.head?_eq_some_iff.mp hminus
      exact ⟨['-'], rest, by simp, rfl, by rw [← h, number?_neg]⟩
    · exact ⟨[], cs, by simp, rfl, by rw [← h, number?_nat hminus]⟩
  obtain ⟨minus, rest, hminus, rfl, hread⟩ := hsign
  obtain ⟨⟨m, left'⟩, hm, hv⟩ := Option.map_eq_some_iff.mp hread
  cases hv
  obtain ⟨w, f, e, rfl, hw, hf, he, rfl⟩ := exists_of_magnitude? hm
  exact ⟨minus ++ (w ++ (f ++ e)), by simp,
    number_iff.mpr ⟨minus, w, f, e, hminus, hw, hf, he, rfl, rfl⟩⟩

/-- **A number is read as it is spelled**, where it ends. -/
theorem number?_of_number {v : Json} {t rest : List Char} (h : Number v t)
    (hrest : IsEnd rest) : number? (t ++ rest) = some (v, rest) := by
  obtain ⟨minus, w, f, e, hminus, hw, hf, he, rfl, rfl⟩ := number_iff.mp h
  have hm := magnitude?_eq hw hf he hrest
  rw [List.append_assoc, List.append_assoc, List.append_assoc]
  simp only [List.mem_cons, List.not_mem_nil, or_false] at hminus
  rcases hminus with rfl | rfl
  · have hhead : (w ++ (f ++ (e ++ rest))).head? ≠ some '-' := by
      obtain ⟨d, ds, rfl, hd⟩ := hw.exists_digit
      rintro h
      cases h
      cases hd
    rw [List.nil_append, number?_nat hhead, hm]
    rfl
  · rw [List.singleton_append, number?_neg, hm]
    rfl

end ChangeReview.Json
