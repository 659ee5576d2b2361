/-!
# Decimal digits

Every script has its own ten digits, each run standing in order in the code chart, so a digit is
known by the zero its run starts with. Numbers are read in any of these digits, mixed as they come,
and written in the ASCII ones; `value_digits` says that a number that was written is read back.

Numbers are unbounded, but texts of them are not: a text of more than `maxDigits` digits is neither
read as a number nor written for one.
-/

namespace ChangeReview.Text

/-- The code points of the characters that mean zero in some script. -/
def zeros : List Nat := [
  0x30, 0x660, 0x6f0, 0x7c0, 0x966, 0x9e6, 0xa66, 0xae6, 0xb66, 0xbe6, 0xc66, 0xce6, 0xd66, 0xde6,
   0xe50, 0xed0, 0xf20, 0x1040, 0x1090, 0x17e0, 0x1810, 0x1946, 0x19d0, 0x1a80, 0x1a90, 0x1b50,
   0x1bb0, 0x1c40, 0x1c50, 0xa620, 0xa8d0, 0xa900, 0xa9d0, 0xa9f0, 0xaa50, 0xabf0, 0xff10, 0x104a0,
   0x10d30, 0x11066, 0x110f0, 0x11136, 0x111d0, 0x112f0, 0x11450, 0x114d0, 0x11650, 0x116c0,
   0x11730, 0x118e0, 0x11950, 0x11c50, 0x11d50, 0x11da0, 0x16a60, 0x16ac0, 0x16b50, 0x1d7ce,
   0x1d7d8, 0x1d7e2, 0x1d7ec, 0x1d7f6, 0x1e140, 0x1e2f0, 0x1e950, 0x1fbf0]

/-- The value of a decimal digit of any script. -/
def digitValue? (c : Char) : Option Nat :=
  (zeros.find? fun z => z ≤ c.toNat && c.toNat < z + 10).map (c.toNat - ·)

/-- Whether a character is a decimal digit of some script. -/
def isDigit (c : Char) : Bool := (digitValue? c).isSome

/-- The number that a run of digits writes; what is no digit counts as zero. -/
def value (cs : List Char) : Nat :=
  cs.foldl (fun acc c => 10 * acc + (digitValue? c).getD 0) 0

/-- The ASCII digit of a value below ten. -/
def digit (n : Nat) : Char := Char.ofNat (48 + n)

/-- The ASCII digits of a number, without leading zeros. -/
def digits (n : Nat) : List Char :=
  if n < 10 then [digit n] else digits (n / 10) ++ [digit (n % 10)]

/-- The decimal text of an integer. -/
def decimal : Int → List Char
  | .ofNat n => digits n
  | .negSucc n => '-' :: digits (n + 1)

/-- The most digits that a number is read from or written with. -/
def maxDigits : Nat := 4300

/-- The least number that has more digits than are written. -/
@[irreducible]
def leastLong : Nat := Nat.pow 10 maxDigits

/-- Whether an integer has more digits than are written; a sign does not count. -/
@[irreducible]
def isLong (n : Int) : Bool := leastLong ≤ n.natAbs

/-- The decimal text of an integer, if it is not too long. -/
def decimal? (n : Int) : Option (List Char) := if isLong n then none else some (decimal n)

/-- The length of the first run of digits in a text that is too long to be read, where `before`
digits stand in front of the text. -/
def longRun? (before : Nat) : List Char → Option Nat
  | [] => if maxDigits < before then some before else none
  | c :: rest =>
    if isDigit c then longRun? (before + 1) rest
    else if maxDigits < before then some before
    else longRun? 0 rest

/-- The wording for a number that has too many digits, and how many where they are counted. -/
def limitMessage (count : Option Nat) : String :=
  let counted := (count.map fun n => s!": value has {n} digits").getD ""
  s!"Exceeds the limit ({maxDigits} digits) for integer string conversion{counted}; " ++
    "use sys.set_int_max_str_digits() to increase the limit"

theorem isLong_leastLong : isLong leastLong = true := by
  unfold isLong
  rw [Int.natAbs_natCast]
  exact decide_eq_true (Nat.le_refl leastLong)

/-- A digit that was written is read back. -/
theorem digitValue?_digit : ∀ n < 10, digitValue? (digit n) = some n := by
  decide

/-- A number that was written is read back. -/
theorem value_digits (n : Nat) : value (digits n) = n := by
  fun_induction digits n with
  | case1 n h => simp [value, digitValue?_digit n h]
  | case2 n h ih =>
    have hd := digitValue?_digit (n % 10) (Nat.mod_lt _ (by decide))
    simp only [value] at ih
    simp [value, List.foldl_append, ih, hd]
    omega

/-- A number has at least one digit. -/
theorem digits_ne_nil (n : Nat) : digits n ≠ [] := by
  unfold digits
  split <;> simp

/-- What a number is written with are digits. -/
theorem isDigit_of_mem_digits {n : Nat} {c : Char} (h : c ∈ digits n) : isDigit c = true := by
  fun_induction digits n with
  | case1 n hn =>
    obtain rfl := List.mem_singleton.1 h
    rw [isDigit, digitValue?_digit n hn]
    rfl
  | case2 n hn ih =>
    rcases List.mem_append.1 h with h | h
    · exact ih h
    · obtain rfl := List.mem_singleton.1 h
      rw [isDigit, digitValue?_digit _ (Nat.mod_lt n (by decide))]
      rfl

end ChangeReview.Text
