/-!
# UTF-8

Bytes are read strictly. The reader goes byte by byte and remembers, inside a character, how many
bytes are still owed and the bounds the next one has to keep: they rule out overlong forms,
surrogates and code points beyond the last. The first byte that fits nothing ends the reading with
the stretch of bytes to blame.
-/

namespace ChangeReview.Text.Utf8

/-- What is wrong with a stretch of bytes. -/
inductive Fault where
  /-- No character starts with this byte. -/
  | start
  /-- A character was begun and the next byte does not go on with it. -/
  | continuation
  /-- The bytes end inside a character. -/
  | ending
  deriving DecidableEq, Repr

/-- The stretch of bytes that cannot be read: its first byte, where it starts and its length. -/
structure DecodeError where
  byte : Nat
  position : Nat
  length : Nat
  fault : Fault
  deriving DecidableEq, Repr

/-- A character of which `taken` bytes were read and `owed` are still to come; the next one lies
between `low` and `high`. -/
structure Pending where
  byte : Nat
  taken : Nat
  owed : Nat
  low : Nat
  high : Nat
  code : Nat

/-- The first byte of a character of several bytes. -/
def lead? (b : Nat) : Option Pending :=
  if 0xC2 ≤ b ∧ b ≤ 0xDF then some ⟨b, 1, 1, 0x80, 0xBF, b - 0xC0⟩
  else if b = 0xE0 then some ⟨b, 1, 2, 0xA0, 0xBF, b - 0xE0⟩
  else if b = 0xED then some ⟨b, 1, 2, 0x80, 0x9F, b - 0xE0⟩
  else if 0xE1 ≤ b ∧ b ≤ 0xEF then some ⟨b, 1, 2, 0x80, 0xBF, b - 0xE0⟩
  else if b = 0xF0 then some ⟨b, 1, 3, 0x90, 0xBF, b - 0xF0⟩
  else if 0xF1 ≤ b ∧ b ≤ 0xF3 then some ⟨b, 1, 3, 0x80, 0xBF, b - 0xF0⟩
  else if b = 0xF4 then some ⟨b, 1, 3, 0x80, 0x8F, b - 0xF0⟩
  else none

/-- Reads on at a position, inside a character or between two. -/
def decodeFrom (position : Nat) : Option Pending → List UInt8 → Except DecodeError (List Char)
  | none, [] => .ok []
  | some p, [] => .error ⟨p.byte, position - p.taken, p.taken, .ending⟩
  | none, b :: rest =>
    if b.toNat < 0x80 then (Char.ofNat b.toNat :: ·) <$> decodeFrom (position + 1) none rest
    else
      match lead? b.toNat with
      | some p => decodeFrom (position + 1) (some p) rest
      | none => .error ⟨b.toNat, position, 1, .start⟩
  | some p, b :: rest =>
    if b.toNat < p.low ∨ p.high < b.toNat then
      .error ⟨p.byte, position - p.taken, p.taken, .continuation⟩
    else
      let code := 64 * p.code + (b.toNat - 0x80)
      if p.owed ≤ 1 then (Char.ofNat code :: ·) <$> decodeFrom (position + 1) none rest
      else decodeFrom (position + 1) (some ⟨p.byte, p.taken + 1, p.owed - 1, 0x80, 0xBF, code⟩) rest

/-- The text that bytes write. -/
def decode (bytes : List UInt8) : Except DecodeError (List Char) :=
  decodeFrom 0 none bytes

/-- The bytes that write a text. -/
def encode (cs : List Char) : List UInt8 :=
  cs.flatMap String.utf8EncodeChar

end ChangeReview.Text.Utf8
