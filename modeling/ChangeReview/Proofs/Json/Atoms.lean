import Mathlib.Data.List.Infix
import ChangeReview.Proofs.Json.Numbers
import ChangeReview.Proofs.Json.Strings

/-!
# Values without parts are read as they are spelled

A value without parts is a name or a number. The names are tried first, and
none of them is the beginning of a number, although one starts with a minus
sign; so the order in which they are tried does not matter. A number is read in
full before its reader gives up on an integer that is too long, so what is known
of numbers is not touched by the limit (`Json.within`).

The blanks that stand around values are dealt with here as well, and the
characters that values start with. A value starts neither with a blank, so
that it stands where the blanks before it have been skipped, nor with a
closing bracket, so that an array which has items is never taken for one that
has none.
-/

namespace ChangeReview.Json

/-! ## Blanks -/

/-- A text is blanks and what stands behind them. -/
theorem exists_of_skip_eq {cs left : List Char} (h : skip cs = left) :
    ∃ b, Blanks b ∧ cs = b ++ left := by
  refine ⟨cs.takeWhile isBlank, fun _ hc => List.mem_takeWhile_imp hc, ?_⟩
  rw [← h]
  exact List.takeWhile_append_dropWhile.symm

theorem skip_blanks {b : List Char} (h : Blanks b) (cs : List Char) :
    skip (b ++ cs) = skip cs :=
  List.dropWhile_append_of_pos h

@[simp] theorem skip_cons_of_not_blank {c : Char} (h : isBlank c = false) (cs : List Char) :
    skip (c :: cs) = c :: cs :=
  List.dropWhile_cons_of_neg (by simp [h])

theorem Blanks.append {b b' : List Char} (h : Blanks b) (h' : Blanks b') : Blanks (b ++ b') :=
  fun c hc => (List.mem_append.mp hc).elim (h c) (h' c)

theorem Blanks.isEnd {b rest : List Char} (h : Blanks b) (hrest : IsEnd rest) :
    IsEnd (b ++ rest) := by
  cases b with
  | nil => exact hrest
  | cons c b =>
    intro d hd
    cases hd
    exact .inl (h c (.head _))

theorem isEnd_cons {c : Char} (h : c ∈ [',', ']', '\x7d']) (rest : List Char) :
    IsEnd (c :: rest) := by
  intro d hd
  cases hd
  exact .inr h

/-! ## Names and numbers -/

/-- What a reader comes to that has a value in full before it: the value,
unless this is beyond a limit. -/
def within {α : Type} (excess : Option Limit) (a : α) (left : List Char) :
    Except Stop (α × List Char) :=
  match excess with
  | none => .ok (a, left)
  | some l => .error (.limit l)

/-- What is read as a name or a number spells it. -/
theorem value_of_atom {cs left : List Char} {v : Json} (h : atom cs = .ok (v, left)) :
    ∃ t, cs = t ++ left ∧ Value v t := by
  unfold atom at h
  split at h
  · next found hfound =>
    cases h
    obtain ⟨⟨word, w⟩, hmem, hword⟩ := List.exists_of_findSome?_eq_some hfound
    obtain ⟨left', hleft, heq⟩ := Option.map_eq_some_iff.mp hword
    cases heq
    exact ⟨word, (List.isPrefixOf?_eq_some_iff_append_eq.mp hleft).symm, .name hmem⟩
  · split at h
    · next w left' hfound =>
      split at h
      · cases h
        obtain ⟨t, rfl, ht⟩ := number_of_number? hfound
        exact ⟨t, rfl, .number ht⟩
      · cases h
    · cases h

/-- A name is read as it is spelled, and is within any limit. -/
theorem atom_of_name {word : List Char} {v : Json} (h : (word, v) ∈ names) (room : Nat)
    (rest : List Char) : atom (word ++ rest) = within (v.excess? room) v rest := by
  unfold names at h
  simp only [List.mem_cons, Prod.mk.injEq, List.not_mem_nil, or_false] at h
  rcases h with ⟨rfl, rfl⟩ | ⟨rfl, rfl⟩ | ⟨rfl, rfl⟩ | ⟨rfl, rfl⟩ | ⟨rfl, rfl⟩ | ⟨rfl, rfl⟩ <;> rfl

theorem ne_of_isDigit {c d : Char} (hc : isDigit c = true) (hd : isDigit d = false) : c ≠ d := by
  rintro rfl
  rw [hc] at hd
  cases hd

theorem Number.exists_digit {v : Json} {t : List Char} (h : Number v t) :
    ∃ minus d ds, minus ∈ [[], ['-']] ∧ isDigit d = true ∧ t = minus ++ d :: ds := by
  obtain ⟨minus, w, f, e, hminus, hw, -, -, rfl, -⟩ := number_iff.mp h
  obtain ⟨d, ds, rfl, hd⟩ := hw.exists_digit
  exact ⟨minus, d, ds ++ (f ++ e), hminus, hd, rfl⟩

/-- A number starts with no name, not even one that starts with a sign. -/
theorem findSome?_names_eq_none {v : Json} {t : List Char} (h : Number v t)
    (rest : List Char) :
    names.findSome? (fun (word, v) => (word.isPrefixOf? (t ++ rest)).map (v, ·)) = none := by
  obtain ⟨minus, d, ds, hminus, hd, rfl⟩ := h.exists_digit
  have hne (c : Char) (hc : isDigit c = false) : (c == d) = false :=
    beq_eq_false_iff_ne.mpr (ne_of_isDigit hd hc).symm
  simp only [List.mem_cons, List.not_mem_nil, or_false] at hminus
  unfold names
  rcases hminus with rfl | rfl <;>
    simp [List.isPrefixOf?, hne 'n' rfl, hne 't' rfl, hne 'f' rfl, hne 'N' rfl, hne 'I' rfl,
      hne '-' rfl]

/-- Nothing but its length keeps a number from being read, however much room
there is. -/
theorem Number.excess?_eq {v : Json} {t : List Char} (h : Number v t) (room : Nat) :
    v.excess? room = v.limit? := by
  cases h <;> rfl

/-- A number is read as it is spelled, where it ends, unless it is too long. -/
theorem atom_of_number {v : Json} {t rest : List Char} (h : Number v t) (hrest : IsEnd rest)
    (room : Nat) : atom (t ++ rest) = within (v.excess? room) v rest := by
  unfold atom
  rw [findSome?_names_eq_none h, number?_of_number h hrest, h.excess?_eq]
  dsimp only
  cases v.limit? <;> rfl

/-! ## How values begin -/

/-- What can start a value: neither a blank, nor a closing bracket, nor a byte
order mark. -/
def IsStart (c : Char) : Prop := isBlank c = false ∧ c ≠ ']' ∧ c ≠ '\uFEFF'

instance (c : Char) : Decidable (IsStart c) := by unfold IsStart; infer_instance

/-- What opens a value that is no name and no number. -/
def openings : List Char := ['"', '[', '\x7b']

theorem exists_start_of_name {word : List Char} {v : Json} (h : (word, v) ∈ names) :
    ∃ c u, word = c :: u ∧ IsStart c ∧ c ∉ openings := by
  unfold names at h
  simp only [List.mem_cons, Prod.mk.injEq, List.not_mem_nil, or_false] at h
  rcases h with ⟨rfl, -⟩ | ⟨rfl, -⟩ | ⟨rfl, -⟩ | ⟨rfl, -⟩ | ⟨rfl, -⟩ | ⟨rfl, -⟩ <;>
    exact ⟨_, _, rfl, by decide, by decide⟩

theorem exists_start_of_number {v : Json} {t : List Char} (h : Number v t) :
    ∃ c u, t = c :: u ∧ IsStart c ∧ c ∉ openings := by
  obtain ⟨minus, d, ds, hminus, hd, rfl⟩ := h.exists_digit
  simp only [List.mem_cons, List.not_mem_nil, or_false] at hminus
  rcases hminus with rfl | rfl
  · have hne (c : Char) (hc : isDigit c = false) : d ≠ c := ne_of_isDigit hd hc
    refine ⟨d, ds, rfl, ⟨?_, hne _ rfl, hne _ rfl⟩, ?_⟩
    · simp [isBlank, hne ' ' rfl, hne '\t' rfl, hne '\n' rfl, hne '\r' rfl]
    · simp [openings, hne '"' rfl, hne '[' rfl, hne '\x7b' rfl]
  · exact ⟨'-', d :: ds, rfl, by decide, by decide⟩

/-- A value has a first character, which tells that it is one. -/
theorem Value.exists_start {v : Json} {t : List Char} (h : Value v t) :
    ∃ c u, t = c :: u ∧ IsStart c := by
  cases h with
  | name h =>
    obtain ⟨c, u, ht, hc, -⟩ := exists_start_of_name h
    exact ⟨c, u, ht, hc⟩
  | number h =>
    obtain ⟨c, u, ht, hc, -⟩ := exists_start_of_number h
    exact ⟨c, u, ht, hc⟩
  | str h =>
    cases h
    exact ⟨_, _, rfl, by decide⟩
  | emptyArr | arr | emptyObj | obj => exact ⟨_, _, rfl, by decide⟩

end ChangeReview.Json
