import ChangeReview.Proofs.Json.Writing

/-!
# Limits are met only where a text goes beyond them

Which limit a document is beyond is said by its value (`Json.excess?`), but the
reader may meet a limit in any text, and does not care whether the text would
have been a document. What can be said of every text is this: an integer is too
long only where so many digits stand side by side, and there is no room for an
array or an object only where more brackets and braces are opened than there is
room for, whether or not they are closed again (`Limit.Exceeded`). So a text
without long runs of digits that opens no more than there is room for is read
by the grammar alone.

A part that goes beyond a limit takes the whole text with it, so along the
readers there is only one thing to keep track of: the text that is left is the
end of the text there was.
-/

namespace ChangeReview

namespace Text

/-- An integer is too long exactly if it is written with too many digits. -/
theorem isLong_iff {n : Int} : isLong n = true ↔ maxDigits < (digits n.natAbs).length := by
  have hle := Nat.length_toDigits_le_iff (b := 10) (n := n.natAbs) (k := maxDigits) (by decide)
    (by decide)
  unfold isLong leastLong
  rw [decide_eq_true_eq, digits_eq_toDigits, Nat.pow_eq, ← Nat.not_lt, ← hle, Nat.not_le]

end Text

namespace Json

theorem exists_digit_of_isDigit {c : Char} (h : isDigit c = true) : ∃ k < 10, c = Text.digit k := by
  obtain ⟨hlow, hhigh⟩ := Bool.and_eq_true_iff.mp h
  have hlow : 48 ≤ c.toNat := of_decide_eq_true hlow
  have hhigh : c.toNat ≤ 57 := of_decide_eq_true hhigh
  refine ⟨c.toNat - 48, by omega, ?_⟩
  rw [Text.digit, Nat.add_sub_cancel' hlow, Char.ofNat_toNat]

/-- The whole part of a number is what its value is written with. -/
theorem Whole.digits_value {w : List Char} (h : Whole w) : Text.digits (Text.value w) = w := by
  cases h with
  | zero =>
    rw [Text.digits]
    rfl
  | digits hds hhead =>
    obtain ⟨hne, hall⟩ := hds
    -- From the end: the digits in front of the last one are those of the tenth
    -- of the value, which is not zero.
    induction w using List.reverseRecOn with
    | nil => exact absurd rfl hne
    | append_singleton w c ih =>
      obtain ⟨k, hk, rfl⟩ := exists_digit_of_isDigit (hall c (by simp))
      have hvalue : Text.value (w ++ [Text.digit k]) = 10 * Text.value w + k := by
        rw [Text.value, List.foldl_append, ← Text.value]
        simp [Text.digitValue?_digit k hk]
      rw [hvalue]
      cases w with
      | nil =>
        rw [show 10 * Text.value [] + k = k by simp [Text.value], Text.digits, if_pos hk]
        rfl
      | cons d ds =>
        have hdigits := ih hhead (List.cons_ne_nil d ds) fun e he =>
          hall e (List.mem_append_left _ he)
        have hpos : Text.value (d :: ds) ≠ 0 := by
          intro hzero
          rw [hzero, Text.digits] at hdigits
          exact hhead (congrArg List.head? hdigits).symm
        rw [Text.digits, if_neg (by omega), show (10 * Text.value (d :: ds) + k) / 10
          = Text.value (d :: ds) by omega, show (10 * Text.value (d :: ds) + k) % 10 = k by omega,
          hdigits]

/-! ## Texts that go beyond a limit -/

/-- Whether a character opens an array or an object. -/
def isOpening (c : Char) : Bool := c == '[' || c == '\x7b'

/-- A text goes beyond a limit: so many digits stand side by side, or more
arrays and objects are opened than there is room for. -/
def Limit.Exceeded (room : Nat) (cs : List Char) : Limit → Prop
  | .digits n => Text.maxDigits < n ∧ ∃ before ds behind, cs = before ++ ds ++ behind ∧
      ds.length = n ∧ ∀ d ∈ ds, isDigit d = true
  | .arrays | .objects => room < cs.countP isOpening

namespace Limit.Exceeded

variable {l : Limit} {room : Nat} {cs : List Char}

/-- So does any text that ends with it. -/
theorem append_left (h : l.Exceeded room cs) (t : List Char) : l.Exceeded room (t ++ cs) := by
  cases l with
  | digits n =>
    obtain ⟨hn, before, ds, behind, rfl, hds⟩ := h
    exact ⟨hn, t ++ before, ds, behind, by simp, hds⟩
  | arrays | objects =>
    have h : room < cs.countP isOpening := h
    show room < (t ++ cs).countP isOpening
    rw [List.countP_append]
    omega

/-- Opened once more, it goes beyond the limit with one more room. -/
theorem cons {c : Char} (hc : isOpening c = true) (h : l.Exceeded room cs) :
    l.Exceeded (room + 1) (c :: cs) := by
  cases l with
  | digits n => exact h.append_left [c]
  | arrays | objects =>
    have h : room < cs.countP isOpening := h
    show room + 1 < (c :: cs).countP isOpening
    rw [List.countP_cons_of_pos hc]
    omega

end Limit.Exceeded

/-! ## The readers -/

/-- Two steps fail together exactly if the first fails, or the second does from
what the first gives. -/
theorem bind_eq_error {ε α β : Type} {x : Except ε α} {f : α → Except ε β} {e : ε} :
    (x >>= f) = .error e ↔ x = .error e ∨ ∃ a, x = .ok a ∧ f a = .error e := by
  cases x with
  | error e' =>
    refine ⟨fun h => .inl (by cases h; rfl), fun h => ?_⟩
    rcases h with h | ⟨_, h, _⟩
    · cases h
      rfl
    · cases h
  | ok a =>
    refine ⟨fun h => .inr ⟨a, rfl, h⟩, fun h => ?_⟩
    rcases h with h | ⟨_, h, hf⟩
    · cases h
    · cases h
      exact hf

/-- A reader meets limits only in texts that go beyond them. -/
def IsLimited {α : Type} (read : List Char → Except Stop (α × List Char)) (room : Nat) : Prop :=
  ∀ ⦃cs : List Char⦄ ⦃l : Limit⦄, read cs = .error (.limit l) → l.Exceeded room cs

/-- No limit is met in a string. -/
theorem units_ne_limit (start cs : List Char) (l : Limit) : units start cs ≠ .error (.limit l) := by
  fun_induction units start cs with
  | case1 | case2 | case3 | case4 | case5 | case7 | case8 | case10 =>
    intro h
    cases h
  | case6 _ _ _ _ _ _ _ _ ih | case9 _ _ _ _ _ _ ih | case11 _ _ _ _ _ _ _ _ ih =>
    intro h
    rcases bind_eq_error.mp h with h | ⟨_, _, h⟩
    · exact ih h
    · cases h

theorem string_ne_limit (rest : List Char) (l : Limit) : string rest ≠ .error (.limit l) := by
  intro h
  rcases bind_eq_error.mp h with h | ⟨_, _, h⟩
  · exact units_ne_limit _ _ l h
  · cases h

/-- Where an atom is met that is too long, its digits stand in the text. -/
theorem atom_isLimited (room : Nat) : IsLimited atom room := by
  intro cs l h
  have hinteger {w : List Char} {n : Int} (hw : Whole w) (hn : n.natAbs = Text.value w)
      (hlimit : limit? (.int n) = some l) : l = .digits w.length ∧ Text.maxDigits < w.length := by
    rw [limit?, hn, hw.digits_value] at hlimit
    by_cases hlong : Text.isLong n = true
    · rw [if_pos hlong] at hlimit
      rw [Text.isLong_iff, hn, hw.digits_value] at hlong
      exact ⟨(Option.some.inj hlimit).symm, hlong⟩
    · rw [if_neg hlong] at hlimit
      cases hlimit
  have hdigits {w : List Char} (hw : Whole w) : ∀ d ∈ w, isDigit d = true := by
    cases hw with
    | zero => exact List.forall_mem_singleton.mpr rfl
    | digits hds => exact hds.2
  unfold atom at h
  split at h
  · cases h
  · split at h
    · next v left hnumber =>
      split at h
      · cases h
      · next l' hlimit =>
        cases h
        obtain ⟨t, rfl, ht⟩ := number_of_number? hnumber
        cases ht with
        | nat hw =>
          obtain ⟨rfl, hlong⟩ := hinteger hw (Int.natAbs_natCast _) hlimit
          exact ⟨hlong, [], t, left, rfl, rfl, hdigits hw⟩
        | @neg w hw =>
          obtain ⟨rfl, hlong⟩ := hinteger hw (by simp) hlimit
          exact ⟨hlong, ['-'], w, left, rfl, rfl, hdigits hw⟩
        | real => cases hlimit
    · cases h

section Limited

variable {fuel room : Nat}

/-- What is left behind blanks is the end of the text. -/
theorem IsLimited.behind_blanks {α : Type} {read : List Char → Except Stop (α × List Char)}
    (h : IsLimited read room) {cs : List Char} {l : Limit}
    (hread : read (skip cs) = .error (.limit l)) : l.Exceeded room cs := by
  obtain ⟨b, _, hb⟩ := exists_of_skip_eq (rfl : skip cs = skip cs)
  rw [hb]
  exact (h hread).append_left b

theorem value_isLimited (hitems : ∀ room, IsLimited (items fuel room) room)
    (hmembers : ∀ room, IsLimited (members fuel room) room) (room : Nat) :
    IsLimited (value (fuel + 1) room) room := by
  intro cs l h
  unfold value at h
  split at h
  · cases h
  · rcases bind_eq_error.mp h with h | ⟨_, _, h⟩
    · exact absurd h (string_ne_limit _ l)
    · cases h
  · cases h
    exact List.countP_pos_iff.mpr ⟨_, .head _, rfl⟩
  · next fuel' room rest heq =>
    cases heq
    split at h
    · cases h
    · rcases bind_eq_error.mp h with h | ⟨_, _, h⟩
      · exact ((hitems room).behind_blanks h).cons rfl
      · cases h
  · cases h
    exact List.countP_pos_iff.mpr ⟨_, .head _, rfl⟩
  · next fuel' room rest heq =>
    cases heq
    split at h
    · cases h
    · rcases bind_eq_error.mp h with h | ⟨_, _, h⟩
      · exact ((hmembers room).behind_blanks h).cons rfl
      · cases h
  · exact atom_isLimited _ h

theorem items_isLimited (hvalue : IsLimited (value fuel room) room)
    (hitems : IsLimited (items fuel room) room) :
    IsLimited (items (fuel + 1) room) room := by
  intro cs l h
  unfold items at h
  rcases bind_eq_error.mp h with hfirst | ⟨⟨v, behind⟩, hv, hread⟩
  · exact hvalue hfirst
  · dsimp only at hread
    split at hread
    · cases hread
    · next rest hskip =>
      rcases bind_eq_error.mp hread with hmore | ⟨_, _, hread⟩
      · obtain ⟨t, ht, -⟩ := (isSound _ _).1 hv
        obtain ⟨b, -, rfl⟩ := exists_of_skip_eq hskip
        rw [ht]
        simpa using (hitems.behind_blanks hmore).append_left (t ++ b ++ [','])
      · cases hread
    · cases hread

theorem members_isLimited (hvalue : IsLimited (value fuel room) room)
    (hmembers : IsLimited (members fuel room) room) :
    IsLimited (members (fuel + 1) room) room := by
  intro cs l h
  unfold members at h
  split at h
  · cases h
  · next fuel' rest heq =>
    cases heq
    rcases bind_eq_error.mp h with hkey | ⟨⟨key, afterKey⟩, hstring, hcolon⟩
    · exact absurd hkey (string_ne_limit _ l)
    · obtain ⟨k, hk, -⟩ := string_eq_ok_iff.mp hstring
      rw [hk]
      dsimp only at hcolon
      split at hcolon
      · next afterColon hafterKey =>
        obtain ⟨b, -, rfl⟩ := exists_of_skip_eq hafterKey
        rcases bind_eq_error.mp hcolon with hfirst | ⟨⟨v, behind⟩, hv, hread⟩
        · simpa using (hvalue.behind_blanks hfirst).append_left (k ++ b ++ [':'])
        · obtain ⟨t, ht, -⟩ := (isSound _ _).1 hv
          obtain ⟨b', -, rfl⟩ := exists_of_skip_eq ht
          dsimp only at hread
          split at hread
          · cases hread
          · next rest' hskip =>
            obtain ⟨b'', -, rfl⟩ := exists_of_skip_eq hskip
            rcases bind_eq_error.mp hread with hmore | ⟨_, _, hread⟩
            · simpa using (hmembers.behind_blanks hmore).append_left
                (k ++ b ++ [':'] ++ b' ++ t ++ b'' ++ [','])
            · cases hread
          · cases hread
      · cases hcolon
  · cases h

end Limited

/-- **A limit is met only in a text that goes beyond it**, with any fuel and any
room. -/
theorem isLimited (fuel room : Nat) :
    IsLimited (value fuel room) room ∧ IsLimited (items fuel room) room ∧
      IsLimited (members fuel room) room := by
  induction fuel generalizing room with
  | zero => exact ⟨nofun, nofun, nofun⟩
  | succ fuel ih =>
    obtain ⟨hvalue, hitems, hmembers⟩ := ih room
    exact ⟨value_isLimited (fun room => (ih room).2.1) (fun room => (ih room).2.2) room,
      items_isLimited hvalue hitems, members_isLimited hvalue hmembers⟩

/-- So is it in a whole document. -/
theorem exceeded_of_document {room : Nat} {cs : List Char} {l : Limit}
    (h : document room cs = .error (.limit l)) : l.Exceeded room cs := by
  unfold document at h
  split at h
  · cases h
  · rcases bind_eq_error.mp h with h | ⟨⟨v, left⟩, -, h⟩
    · exact (isLimited _ room).1.behind_blanks h
    · dsimp only at h
      split at h <;> cases h

end Json

end ChangeReview
