import ChangeReview.Proofs.Json.Grammar

/-!
# Strings are read as they are spelled

The reader of strings goes through a text once for the code units and once
more over these for the points. Either pass is the relation of the
grammar: it succeeds on the texts that the relation knows, with what the
relation says, and leaves what stands behind the closing quote.
-/

namespace ChangeReview

/-- Two steps succeed together exactly if the second succeeds from what the
first gives. -/
theorem bind_eq_ok {ε α β : Type} {x : Except ε α} {f : α → Except ε β} {b : β} :
    (x >>= f) = .ok b ↔ ∃ a, x = .ok a ∧ f a = .ok b := by
  cases x with
  | error e => exact ⟨nofun, fun ⟨_, h, _⟩ => nomatch h⟩
  | ok a => exact ⟨fun h => ⟨a, rfl, h⟩, fun ⟨_, h, hf⟩ => by cases h; exact hf⟩

/-- A step that succeeds hands on what it gives. -/
theorem ok_bind {ε α β : Type} (a : α) (f : α → Except ε β) : (Except.ok a >>= f) = f a := rfl

namespace Json

/-! ## Code units -/

/-- A unit is read in front of others exactly if these are read. -/
theorem cons_eq_ok {x : Except Stop (List Nat × List Char)} {n : Nat} {ns : List Nat}
    {left : List Char} :
    (do let (ms, left) ← x; return (n :: ms, left)) = .ok (ns, left)
      ↔ ∃ ms, x = .ok (ms, left) ∧ ns = n :: ms := by
  rw [bind_eq_ok]
  constructor
  · rintro ⟨⟨ms, left'⟩, hx, h⟩
    cases h
    exact ⟨ms, hx, rfl⟩
  · rintro ⟨ms, hx, rfl⟩
    exact ⟨(ms, left), hx, rfl⟩

/-- What is read as code units spells them, up to a quote. -/
theorem quoted_of_units {start cs left : List Char} {ns : List Nat}
    (h : units start cs = .ok (ns, left)) : ∃ t, cs = t ++ '"' :: left ∧ Quoted t ns := by
  fun_induction units start cs generalizing ns left with
  | case1 | case3 | case4 | case5 | case7 | case8 | case10 => cases h
  | case2 rest =>
    cases h
    exact ⟨[], rfl, .nil⟩
  | case6 a b c d rest _ n hn ih =>
    obtain ⟨ms, hms, rfl⟩ := cons_eq_ok.mp h
    obtain ⟨t, rfl, ht⟩ := ih hms
    exact ⟨'\\' :: 'u' :: a :: b :: c :: d :: t, rfl, .unit hn ht⟩
  | case9 letter rest _ _ c hc ih =>
    obtain ⟨ms, hms, rfl⟩ := cons_eq_ok.mp h
    obtain ⟨t, rfl, ht⟩ := ih hms
    exact ⟨'\\' :: letter :: t, rfl, .escape hc ht⟩
  | case11 c rest hquote hend _ _ hescape hcontrol ih =>
    obtain ⟨ms, hms, rfl⟩ := cons_eq_ok.mp h
    obtain ⟨t, rfl, ht⟩ := ih hms
    refine ⟨c :: t, rfl, .plain (Nat.not_lt.mp hcontrol) hquote (fun hc => ?_) ht⟩
    -- behind a backslash there is at least the closing quote
    cases t with
    | nil => exact hescape _ _ hc rfl
    | cons d t => exact hescape _ _ hc rfl

/-- What spells code units is read as them, up to a quote. -/
theorem units_of_quoted {t : List Char} {ns : List Nat} (h : Quoted t ns)
    (start left : List Char) : units start (t ++ '"' :: left) = .ok (ns, left) := by
  induction h with
  | nil => rfl
  | @plain c t ns hcontrol hquote hescape _ ih =>
    rw [List.cons_append, units]
    · rw [if_neg (Nat.not_lt.mpr hcontrol)]
      exact cons_eq_ok.mpr ⟨ns, ih, rfl⟩
    all_goals simp [hquote, hescape]
  | @escape letter c t ns hc _ ih =>
    have hu : letter ≠ 'u' := by
      rintro rfl
      cases hc
    rw [List.cons_append, List.cons_append, units]
    · rw [hc]
      exact cons_eq_ok.mpr ⟨ns, ih, rfl⟩
    all_goals simp [hu]
  | @unit a b c d n t ns hn _ ih =>
    rw [List.cons_append, List.cons_append, List.cons_append, List.cons_append, List.cons_append,
      List.cons_append, units, if_neg (by simp), hn]
    exact cons_eq_ok.mpr ⟨ns, ih, rfl⟩

/-! ## Points -/

/-- The halves of pairs are the first and the second ones. -/
theorem isHalf_iff {n : Nat} :
    0xD800 ≤ n ∧ n ≤ 0xDFFF ↔ isHigh n = true ∨ isLow n = true := by
  simp only [isHigh, isLow, Bool.and_eq_true, decide_eq_true_eq]
  omega

/-- A unit that does not make a pair with the next one is joined by itself. -/
theorem joins_cons_ofUnit {n : Nat} {ns : List Nat} {ps : List Text.Point}
    (alone : isHigh n = true → ∀ m ∈ ns.head?, isLow m = false) (h : Joins ns ps) :
    Joins (n :: ns) (ofUnit n :: ps) := by
  unfold ofUnit
  split
  · next hhalf => exact .half (h := ⟨n, hhalf⟩) alone h
  · next hhalf =>
    rw [isHalf_iff, not_or, Bool.not_eq_true, Bool.not_eq_true] at hhalf
    exact .unit hhalf.1 hhalf.2 h

theorem ofUnit_half (h : Text.Half) : ofUnit h.unit = .half h := dif_pos h.isHalf

theorem ofUnit_char {n : Nat} (hhigh : isHigh n = false) (hlow : isLow n = false) :
    ofUnit n = .char (Char.ofNat n) := by
  refine dif_neg fun h => ?_
  rw [isHalf_iff, hhigh, hlow] at h
  simp at h

theorem joinUnits_cons_of_alone {n : Nat} {ns : List Nat}
    (alone : isHigh n = true → ∀ m ∈ ns.head?, isLow m = false) :
    joinUnits (n :: ns) = ofUnit n :: joinUnits ns := by
  cases ns with
  | nil => rfl
  | cons m ns =>
    rw [joinUnits, if_neg]
    rw [Bool.and_eq_true]
    rintro ⟨hhigh, hlow⟩
    rw [alone hhigh m rfl] at hlow
    cases hlow

/-- **Code units are joined as the grammar says.** -/
theorem joinUnits_eq_iff {ns : List Nat} {ps : List Text.Point} :
    joinUnits ns = ps ↔ Joins ns ps := by
  constructor
  · rintro rfl
    fun_induction joinUnits ns with
    | case1 => exact .nil
    | case2 n => exact joins_cons_ofUnit (fun _ => nofun) .nil
    | case3 m n ns h ih =>
      rw [Bool.and_eq_true] at h
      exact .pair h.1 h.2 ih
    | case4 m n ns h ih =>
      refine joins_cons_ofUnit (fun hhigh k hk => ?_) ih
      cases hk
      simpa [hhigh] using h
  · intro h
    induction h with
    | nil => rfl
    | @unit n ns ps hhigh hlow _ ih =>
      rw [joinUnits_cons_of_alone (by simp [hhigh]), ih, ofUnit_char hhigh hlow]
    | @pair m n ns ps hhigh hlow _ ih =>
      rw [joinUnits, hhigh, hlow, ih]
      rfl
    | @half h ns ps alone _ ih => rw [joinUnits_cons_of_alone alone, ih, ofUnit_half]

/-! ## Strings -/

/-- **A string is read as it is spelled**, with what stands behind its closing
quote left. -/
theorem string_eq_ok_iff {s : WideString} {rest left : List Char} :
    string rest = .ok (s, left) ↔ ∃ t, '"' :: rest = t ++ left ∧ Literal s t := by
  unfold string
  rw [bind_eq_ok]
  constructor
  · rintro ⟨⟨ns, left'⟩, hunits, h⟩
    cases h
    obtain ⟨t, rfl, ht⟩ := quoted_of_units hunits
    exact ⟨'"' :: t ++ ['"'], by simp, .mk ht (joinUnits_eq_iff.mp rfl)⟩
  · rintro ⟨t, ht, hs⟩
    cases hs with
    | @mk t ns ps hquoted hjoins =>
      obtain rfl : rest = t ++ '"' :: left := by simpa using ht
      refine ⟨(ns, left), units_of_quoted hquoted _ _, ?_⟩
      rw [← joinUnits_eq_iff.mpr hjoins]
      rfl

end Json

end ChangeReview
