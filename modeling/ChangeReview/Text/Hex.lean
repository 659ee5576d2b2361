/-!
# Hexadecimal digits

Code points are written with a fixed number of lower-case hexadecimal digits and read in either
case. `digitValue?_digit` says that a digit that was written is read back.
-/

namespace ChangeReview.Text.Hex

/-- The digit of a value below sixteen. -/
def digit (n : Nat) : Char :=
  if n < 10 then Char.ofNat (48 + n) else Char.ofNat (87 + n)

/-- The last `width` hexadecimal digits of a number, most significant first. -/
def digits : Nat → Nat → List Char
  | 0, _ => []
  | width + 1, n => digits width (n / 16) ++ [digit (n % 16)]

/-- The value of a hexadecimal digit in either case. -/
def digitValue? (c : Char) : Option Nat :=
  if '0' ≤ c ∧ c ≤ '9' then some (c.toNat - 48)
  else if 'a' ≤ c ∧ c ≤ 'f' then some (c.toNat - 87)
  else if 'A' ≤ c ∧ c ≤ 'F' then some (c.toNat - 55)
  else none

/-- The number that a run of digits writes, or none when one of them is no digit. -/
def value? (cs : List Char) : Option Nat :=
  cs.foldlM (fun acc c => (digitValue? c).map (16 * acc + ·)) 0

/-- A digit that was written is read back. -/
theorem digitValue?_digit : ∀ n < 16, digitValue? (digit n) = some n := by
  decide

@[simp]
theorem length_digits (width n : Nat) : (digits width n).length = width := by
  induction width generalizing n with
  | zero => rfl
  | succ w ih => simp [digits, ih]

end ChangeReview.Text.Hex
