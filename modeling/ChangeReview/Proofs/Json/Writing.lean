import Mathlib.Algebra.GroupWithZero.Nat
import Mathlib.Data.List.TakeDrop
import Mathlib.Tactic.ByContra
import ChangeReview.Json.Printer
import ChangeReview.Proofs.Json.Documents

/-!
# What is written is a document

The writer lays a value out over lines and keeps to ASCII, escaping all
other characters. What it writes is a document of the value it was given
(`Json.IsExact.document_render`), so by what is known of the reader it is read
back as just this value, if that is within the limits. The depth at which a
value stands shows only in blanks, which the grammar allows at all the places
where the writer puts them.

The part that needs an argument is a single character of a string. It is
written as itself, as a short escape, as one unit escape, or as two for the
halves of a surrogate pair (`Json.IsEscaped`); in every case its code units are
spelled, and from its code units the character is joined again.

Of a number with a fraction or an exponent only the literal is known, and
nothing says that it is one. In a text, two halves of surrogate pairs may stand
side by side that would be read as a pair. Values without such numbers and
without halves are exact (`Json.IsExact`), and of these all of this holds.
-/

namespace ChangeReview

/-! ## Digits and ASCII -/

namespace Text

/-- A text of ASCII characters. -/
def IsAscii (cs : List Char) : Prop := ∀ c ∈ cs, c.toNat < 0x80

instance (cs : List Char) : Decidable (IsAscii cs) := List.decidableBAll _ cs

theorem isAscii_nil : IsAscii [] := fun _ h => absurd h List.not_mem_nil

theorem IsAscii.cons {c : Char} {cs : List Char} (hc : c.toNat < 0x80) (h : IsAscii cs) :
    IsAscii (c :: cs) :=
  List.forall_mem_cons.mpr ⟨hc, h⟩

theorem IsAscii.append {cs ds : List Char} (hc : IsAscii cs) (hd : IsAscii ds) :
    IsAscii (cs ++ ds) :=
  List.forall_mem_append.mpr ⟨hc, hd⟩

theorem digit_eq_digitChar : ∀ n < 10, digit n = n.digitChar := by decide

/-- Numbers are written in the standard decimal notation. -/
theorem digits_eq_toDigits (n : Nat) : digits n = Nat.toDigits 10 n := by
  fun_induction digits n with
  | case1 n h => rw [Nat.toDigits_of_lt_base h, digit_eq_digitChar n h]
  | case2 n h ih =>
    rw [Nat.toDigits_of_base_le (by decide) (Nat.not_lt.mp h), ih,
      digit_eq_digitChar _ (Nat.mod_lt n (by decide))]

/-- So are integers. -/
theorem ofList_decimal (n : Int) : String.ofList (decimal n) = toString n := by
  cases n with
  | ofNat n => exact congrArg String.ofList (digits_eq_toDigits n)
  | negSucc n =>
    show String.ofList ('-' :: digits (n + 1)) = "-" ++ String.ofList (Nat.toDigits 10 (n + 1))
    rw [digits_eq_toDigits]
    apply String.toList_inj.mp
    simp

/-- A number is written with the ten ASCII digits. -/
theorem exists_digit_of_mem {n : Nat} {c : Char} (h : c ∈ digits n) : ∃ k < 10, c = digit k := by
  fun_induction digits n with
  | case1 n hn => exact ⟨n, hn, List.mem_singleton.mp h⟩
  | case2 n hn ih =>
    rcases List.mem_append.mp h with h | h
    · exact ih h
    · exact ⟨n % 10, Nat.mod_lt n (by decide), List.mem_singleton.mp h⟩

theorem isAscii_digits (n : Nat) : IsAscii (digits n) := by
  have hdigit : ∀ k < 10, (digit k).toNat < 0x80 := by decide
  intro c hc
  obtain ⟨k, hk, rfl⟩ := exists_digit_of_mem hc
  exact hdigit k hk

/-- No zero stands in front of a number, unless the number is zero. -/
theorem head?_digits_ne {n : Nat} (hn : n ≠ 0) : (digits n).head? ≠ some '0' := by
  fun_induction digits n with
  | case1 n h =>
    have hdigit : ∀ k < 10, k ≠ 0 → digit k ≠ '0' := by decide
    exact fun heq => hdigit n h hn (Option.some.inj heq)
  | case2 n h ih =>
    rw [List.head?_append_of_ne_nil _ (digits_ne_nil _)]
    exact ih (by omega)

namespace Hex

/-- A number that fits its digits is read back. -/
theorem value?_digits {width n : Nat} (h : n < 16 ^ width) : value? (digits width n) = some n := by
  induction width generalizing n with
  | zero =>
    obtain rfl : n = 0 := by simpa using h
    rfl
  | succ width ih =>
    have hrest : List.foldlM _ _ _ = _ := ih (n := n / 16) (by omega)
    have hlast := digitValue?_digit (n % 16) (Nat.mod_lt n (by decide))
    unfold value? digits
    rw [List.foldlM_append, hrest]
    show (digitValue? (digit (n % 16))).map (16 * (n / 16) + ·) >>= pure = _
    rw [hlast]
    show some (16 * (n / 16) + n % 16) = _
    rw [Nat.div_add_mod]

theorem isAscii_digits (width n : Nat) : IsAscii (digits width n) := by
  have hdigit : ∀ k < 16, (digit k).toNat < 0x80 := by decide
  induction width generalizing n with
  | zero => exact isAscii_nil
  | succ width ih => exact (ih _).append (isAscii_nil.cons (hdigit _ (Nat.mod_lt n (by decide))))

end Hex

end Text

namespace Json

open Text (IsAscii isAscii_nil)

/-! ## Strings -/

/-- The code units of a character: its code point, or a surrogate pair. -/
def codeUnits (c : Char) : List Nat :=
  if c.toNat < 0x10000 then [c.toNat]
  else [0xD800 + (c.toNat - 0x10000) / 0x400, 0xDC00 + (c.toNat - 0x10000) % 0x400]

/-- The ways in which a character is written in a string. -/
inductive IsEscaped (c : Char) : List Char → Prop
  | plain (hcontrol : 0x20 ≤ c.toNat) (hascii : c.toNat < 0x7F) (hquote : c ≠ '"')
      (hescape : c ≠ '\\') : IsEscaped c [c]
  | short {letter : Char} (h : unescape? letter = some c) : IsEscaped c ['\\', letter]
  | unit (h : c.toNat < 0x10000) : IsEscaped c (escapeUnit c.toNat)
  | pair (h : ¬ c.toNat < 0x10000) :
      IsEscaped c (escapeUnit (0xD800 + (c.toNat - 0x10000) / 0x400) ++
        escapeUnit (0xDC00 + (c.toNat - 0x10000) % 0x400))

/-- A character is written in one of these ways. -/
theorem isEscaped_escapeChar (c : Char) : IsEscaped c (escapeChar c) := by
  have hshort {letter d : Char} (h : c = d) (hd : unescape? letter = some d) :
      IsEscaped c ['\\', letter] := .short (h ▸ hd)
  unfold escapeChar
  split
  · next h => exact hshort h rfl
  split
  · next h => exact hshort h rfl
  split
  · next h => exact hshort h rfl
  split
  · next h => exact hshort h rfl
  split
  · next h => exact hshort h rfl
  split
  · next h => exact hshort h rfl
  split
  · next h => exact hshort h rfl
  split
  · next hquote hescape _ _ _ _ _ h => exact .plain h.1 h.2 hquote hescape
  split
  · next h => exact .unit h
  · next h => exact .pair h

/-- A short escape is ASCII and stands for an ASCII character. -/
theorem ascii_of_unescape? {letter c : Char} (h : unescape? letter = some c) :
    letter.toNat < 0x80 ∧ c.toNat < 0x80 := by
  unfold unescape? at h
  split at h <;> cases h <;> decide

theorem isAscii_escapeUnit (n : Nat) : IsAscii (escapeUnit n) :=
  ((Text.Hex.isAscii_digits 4 n).cons (by decide)).cons (by decide)

theorem IsEscaped.isAscii {c : Char} {t : List Char} (h : IsEscaped c t) : IsAscii t := by
  cases h with
  | plain _ hascii => exact isAscii_nil.cons (by omega)
  | short h => exact (isAscii_nil.cons (ascii_of_unescape? h).1).cons (by decide)
  | unit h => exact isAscii_escapeUnit _
  | pair h => exact (isAscii_escapeUnit _).append (isAscii_escapeUnit _)

/-- A unit escape spells its unit. -/
theorem quoted_escapeUnit {n : Nat} {t : List Char} {ns : List Nat} (hn : n < 0x10000)
    (h : Quoted t ns) : Quoted (escapeUnit n ++ t) (n :: ns) := by
  have hvalue : Text.Hex.value? (Text.Hex.digits 4 n) = some n := Text.Hex.value?_digits hn
  exact .unit hvalue h

/-- A code point is that of a character: it is no half of a pair. -/
theorem toNat_valid (c : Char) : c.toNat < 0xD800 ∨ 0xDFFF < c.toNat ∧ c.toNat < 0x110000 :=
  c.valid

/-- A character that is written spells its code units. -/
theorem IsEscaped.quoted {c : Char} {t u : List Char} {ns : List Nat} (hc : IsEscaped c t)
    (h : Quoted u ns) : Quoted (t ++ u) (codeUnits c ++ ns) := by
  have hvalid := toNat_valid c
  unfold codeUnits
  cases hc with
  | plain hcontrol hascii hquote hescape =>
    rw [if_pos (by omega)]
    exact .plain hcontrol hquote hescape h
  | short hletter =>
    rw [if_pos (Nat.lt_trans (ascii_of_unescape? hletter).2 (by decide))]
    exact .escape hletter h
  | unit hc =>
    rw [if_pos hc]
    exact quoted_escapeUnit hc h
  | pair hc =>
    rw [if_neg hc, List.append_assoc]
    exact quoted_escapeUnit (by omega) (quoted_escapeUnit (by omega) h)

/-- The code units of a character make this character. -/
theorem joins_codeUnits (c : Char) {ns : List Nat} {ps : List Text.Point} (h : Joins ns ps) :
    Joins (codeUnits c ++ ns) (.char c :: ps) := by
  have hvalid := toNat_valid c
  unfold codeUnits
  split
  · have hjoined : Joins (c.toNat :: ns) (.char (Char.ofNat c.toNat) :: ps) := by
      refine .unit ?_ ?_ h <;> simp [isHigh, isLow] <;> omega
    rwa [Char.ofNat_toNat] at hjoined
  · have hcode : 0x10000 + 0x400 * (0xD800 + (c.toNat - 0x10000) / 0x400 - 0xD800)
        + (0xDC00 + (c.toNat - 0x10000) % 0x400 - 0xDC00) = c.toNat := by omega
    have hjoined := Joins.pair (m := 0xD800 + (c.toNat - 0x10000) / 0x400)
      (n := 0xDC00 + (c.toNat - 0x10000) % 0x400) (by simp [isHigh]; omega)
      (by simp [isLow]; omega) h
    rwa [hcode, Char.ofNat_toNat] at hjoined

/-- A text of characters is written character by character. -/
theorem renderString_ofString (s : String) :
    renderString s = '"' :: s.toList.flatMap escapeChar ++ ['"'] := by
  show '"' :: (s.toList.map Text.Point.char).flatMap escapePoint ++ ['"'] = _
  rw [List.flatMap_map]
  rfl

/-- **A string that is written is spelled.** -/
theorem literal_renderString (s : String) : Literal s (renderString s) := by
  have hspelled (cs : List Char) : Quoted (cs.flatMap escapeChar) (cs.flatMap codeUnits) ∧
      Joins (cs.flatMap codeUnits) (cs.map .char) := by
    induction cs with
    | nil => exact ⟨.nil, .nil⟩
    | cons c cs ih => exact ⟨(isEscaped_escapeChar c).quoted ih.1, joins_codeUnits c ih.2⟩
  rw [renderString_ofString]
  exact .mk (hspelled s.toList).1 (hspelled s.toList).2

theorem isAscii_renderString (s : String) : IsAscii (renderString s) := by
  have hchars : IsAscii (s.toList.flatMap escapeChar) := by
    intro c hc
    obtain ⟨d, -, hc⟩ := List.mem_flatMap.mp hc
    exact (isEscaped_escapeChar d).isAscii c hc
  rw [renderString_ofString]
  exact (hchars.cons (by decide)).append (isAscii_nil.cons (by decide))

/-! ## Integers -/

theorem whole_digits (n : Nat) : Whole (Text.digits n) := by
  by_cases hn : n = 0
  · subst hn
    rw [Text.digits]
    exact .zero
  · refine .digits ⟨Text.digits_ne_nil n, fun d hd => ?_⟩ (Text.head?_digits_ne hn)
    have hdigit : ∀ k < 10, isDigit (Text.digit k) = true := by decide
    obtain ⟨k, hk, rfl⟩ := Text.exists_digit_of_mem hd
    exact hdigit k hk

/-- **An integer that is written is spelled.** -/
theorem number_decimal (n : Int) : Number (.int n) (Text.decimal n) := by
  cases n with
  | ofNat n =>
    have h := Number.nat (whole_digits n)
    rwa [Text.value_digits] at h
  | negSucc n =>
    have h := Number.neg (whole_digits (n + 1))
    rwa [Text.value_digits] at h

theorem isAscii_decimal (n : Int) : IsAscii (Text.decimal n) := by
  cases n with
  | ofNat n => exact Text.isAscii_digits n
  | negSucc n => exact (Text.isAscii_digits _).cons (by decide)

/-! ## Values -/

/-- A value in which there is no number but integers and no text but of
characters. -/
inductive IsExact : Json → Prop
  | null : IsExact .null
  | bool (b : Bool) : IsExact (.bool b)
  | int (n : Int) : IsExact (.int n)
  | str (s : String) : IsExact (.str s)
  | arr {vs : List Json} (h : ∀ v ∈ vs, IsExact v) : IsExact (.arr vs)
  | obj {ms : List (String × Json)} (h : ∀ m ∈ ms, IsExact m.2) :
      IsExact (.obj (ms.map fun m => (.ofString m.1, m.2)))

/-- A text spells a value, in ASCII. -/
structure IsWritten (v : Json) (t : List Char) : Prop where
  spells : Value v t
  ascii : IsAscii t

theorem Blanks.isAscii {b : List Char} (h : Blanks b) : IsAscii b := by
  intro c hc
  have hblank := h c hc
  simp only [isBlank, Bool.or_eq_true, beq_iff_eq] at hblank
  rcases hblank with ((rfl | rfl) | rfl) | rfl <;> decide

theorem blanks_newline (depth : Nat) : Blanks (newline depth) := by
  intro c hc
  rcases List.mem_cons.mp hc with rfl | hc
  · rfl
  · obtain rfl := List.eq_of_mem_replicate hc
    rfl

theorem blanks_nil : Blanks [] := fun _ h => absurd h List.not_mem_nil

theorem blanks_space : Blanks [' '] := List.forall_mem_singleton.mpr rfl

variable {depth : Nat} {behind : List Char}

/-- Values that are written one after the other are the items of an array. -/
theorem items_render (hbehind : Blanks behind) {v : Json} {vs : List Json}
    (h : ∀ w ∈ v :: vs, IsWritten w (renderAt depth w)) :
    Items (v :: vs) (newline depth ++ renderAt depth v ++ renderItems depth vs ++ behind) ∧
      IsAscii (newline depth ++ renderAt depth v ++ renderItems depth vs ++ behind) := by
  have hnewline := blanks_newline depth
  have hv := h v (.head _)
  have hfirst := hnewline.isAscii.append hv.ascii
  induction vs generalizing v with
  | nil =>
    rw [renderItems, List.append_nil]
    exact ⟨.last (.mk hnewline hv.spells hbehind), hfirst.append hbehind.isAscii⟩
  | cons w vs ih =>
    have hw := h w (.tail _ (.head _))
    obtain ⟨hitems, hascii⟩ := ih (fun u hu => h u (.tail _ hu)) hw (hnewline.isAscii.append hw.ascii)
    have hcons := Items.cons (.mk hnewline hv.spells blanks_nil) hitems
    have hall := hfirst.append (hascii.cons (c := ',') (by decide))
    rw [renderItems]
    simp only [List.append_assoc, List.cons_append, List.nil_append] at hcons hall ⊢
    exact ⟨hcons, hall⟩

/-- Keys and values that are written one after the other are the members of an
object. -/
theorem members_render (hbehind : Blanks behind) {key : String} {v : Json}
    {ms : List (String × Json)} (h : ∀ m ∈ (key, v) :: ms, IsWritten m.2 (renderAt depth m.2)) :
    let named : List (WideString × Json) := ms.map fun m => (.ofString m.1, m.2)
    Members ((.ofString key, v) :: named) (newline depth ++ renderString key ++ [':', ' '] ++
        renderAt depth v ++ renderMembers depth named ++ behind) ∧
      IsAscii (newline depth ++ renderString key ++ [':', ' '] ++
        renderAt depth v ++ renderMembers depth named ++ behind) := by
  have hnewline := blanks_newline depth
  have hmember {behind : List Char} (hbehind : Blanks behind) (key : String) {v : Json}
      (hv : IsWritten v (renderAt depth v)) :
      Member (.ofString key, v) (newline depth ++ renderString key ++ [] ++
          ':' :: ([' '] ++ renderAt depth v ++ behind)) ∧
        IsAscii (newline depth ++ renderString key ++ [] ++
          ':' :: ([' '] ++ renderAt depth v ++ behind)) :=
    ⟨.mk hnewline (literal_renderString key) blanks_nil (.mk blanks_space hv.spells hbehind),
      ((hnewline.isAscii.append (isAscii_renderString key)).append isAscii_nil).append
        (((blanks_space.isAscii.append hv.ascii).append hbehind.isAscii).cons (by decide))⟩
  dsimp only
  induction ms generalizing key v with
  | nil =>
    obtain ⟨hlast, hascii⟩ := hmember hbehind key (h _ (.head _))
    rw [List.map_nil, renderMembers]
    simp only [List.append_assoc, List.cons_append, List.nil_append] at hlast hascii ⊢
    exact ⟨.last hlast, hascii⟩
  | cons m ms ih =>
    obtain ⟨hmembers, hmembersAscii⟩ := ih fun n hn => h n (.tail _ hn)
    obtain ⟨hfirst, hascii⟩ := hmember blanks_nil key (h _ (.head _))
    have hcons := Members.cons hfirst hmembers
    have hall := hascii.append (hmembersAscii.cons (c := ',') (by decide))
    rw [List.map_cons, renderMembers]
    simp only [List.append_assoc, List.cons_append, List.nil_append] at hcons hall ⊢
    exact ⟨hcons, hall⟩

/-- **An exact value is written as a spelling of it, in ASCII, at any depth.** -/
theorem IsExact.isWritten {v : Json} (hv : v.IsExact) (depth : Nat) :
    IsWritten v (renderAt depth v) := by
  induction hv generalizing depth with
  | null => exact ⟨.name (.head _), (by decide : IsAscii "null".toList)⟩
  | bool b =>
    cases b with
    | true => exact ⟨.name (.tail _ (.head _)), (by decide : IsAscii "true".toList)⟩
    | false => exact ⟨.name (.tail _ (.tail _ (.head _))), (by decide : IsAscii "false".toList)⟩
  | int n => exact ⟨.number (number_decimal n), isAscii_decimal n⟩
  | str s => exact ⟨.str (literal_renderString s), isAscii_renderString s⟩
  | @arr vs h ih =>
    cases vs with
    | nil => exact ⟨.emptyArr blanks_nil, (by decide : IsAscii ['[', ']'])⟩
    | cons v vs =>
      obtain ⟨hitems, hascii⟩ := items_render (blanks_newline depth) fun w hw => ih w hw (depth + 1)
      have hspells := Value.arr hitems
      have hall := (hascii.append (isAscii_nil.cons (c := ']') (by decide))).cons (c := '[') (by decide)
      rw [renderAt]
      simp only [List.append_assoc, List.cons_append] at hspells hall ⊢
      exact ⟨hspells, hall⟩
  | @obj ms h ih =>
    cases ms with
    | nil => exact ⟨.emptyObj blanks_nil, (by decide : IsAscii ['\x7b', '\x7d'])⟩
    | cons m ms =>
      obtain ⟨hmembers, hascii⟩ :=
        members_render (blanks_newline depth) fun n hn => ih n hn (depth + 1)
      have hspells := Value.obj hmembers
      have hall :=
        (hascii.append (isAscii_nil.cons (c := '\x7d') (by decide))).cons (c := '\x7b') (by decide)
      simp only [List.map_cons, renderAt, List.append_assoc, List.cons_append, List.nil_append]
        at hspells hall ⊢
      exact ⟨hspells, hall⟩

/-- **What is written is a document of the value**, also with blanks behind
it. -/
theorem IsExact.document_render {v : Json} (hv : v.IsExact) {behind : List Char}
    (hbehind : Blanks behind) :
    Document v (renderAt 0 v ++ behind) ∧ IsAscii (renderAt 0 v ++ behind) :=
  ⟨.mk blanks_nil (hv.isWritten 0).spells hbehind, (hv.isWritten 0).ascii.append hbehind.isAscii⟩

end Json

end ChangeReview
