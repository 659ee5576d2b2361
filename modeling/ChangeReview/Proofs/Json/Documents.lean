import ChangeReview.Proofs.Json.Atoms

/-!
# Documents are read as they are spelled

The reader of values calls itself for the parts of a value, with less fuel
each time, and so do the two proofs: what holds of the readers with some fuel
is shown to hold of them with one more. One way, whatever is read is spelled
by the text that was taken for it (`Json.isSound`); fuel does not matter here,
since a reader without fuel reads nothing. The other way, whatever is spelled
by a text that is no longer than the fuel is read, or refused for the first
limit that it is beyond (`Json.readsValues`): every call within another is
about a text that is shorter by a bracket, a brace or a comma at least.

A document is read with more fuel than it has characters, so that the reader
reads exactly the texts that the grammar calls documents, as far as they are
within the limits (`Json.document_eq_ok_iff`, `Json.document_of_document`).
-/

namespace ChangeReview.Json

/-! ## What is read is spelled -/

/-- Whatever a reader reads is spelled by what it takes from the text, up to
its closing mark. -/
def IsSound {α : Type} (read : List Char → Except Stop (α × List Char))
    (Spells : α → List Char → Prop) (close : List Char) : Prop :=
  ∀ ⦃cs a left⦄, read cs = .ok (a, left) → ∃ t, cs = t ++ (close ++ left) ∧ Spells a t

theorem Element.blanks_append {b t : List Char} {v : Json} (hb : Blanks b)
    (h : Element v t) : Element v (b ++ t) := by
  cases h with
  | mk hbefore hv hbehind =>
    simpa only [List.append_assoc] using Element.mk (hb.append hbefore) hv hbehind

theorem Literal.exists_quote {s : WideString} {t : List Char} (h : Literal s t) :
    ∃ u, t = '"' :: u := by
  cases h
  exact ⟨_, rfl⟩

theorem Items.blanks_append {b t : List Char} {vs : List Json} (hb : Blanks b)
    (h : Items vs t) : Items vs (b ++ t) := by
  cases h with
  | last he => exact .last (he.blanks_append hb)
  | cons he hrest =>
    rw [← List.append_assoc]
    exact .cons (he.blanks_append hb) hrest

theorem Member.blanks_append {b t : List Char} {m : WideString × Json} (hb : Blanks b)
    (h : Member m t) : Member m (b ++ t) := by
  cases h with
  | mk hbefore hk hbehind he =>
    simpa only [List.append_assoc] using Member.mk (hb.append hbefore) hk hbehind he

theorem Members.blanks_append {b t : List Char} {ms : List (WideString × Json)} (hb : Blanks b)
    (h : Members ms t) : Members ms (b ++ t) := by
  cases h with
  | last hm => exact .last (hm.blanks_append hb)
  | cons hm hrest =>
    rw [← List.append_assoc]
    exact .cons (hm.blanks_append hb) hrest

section Sound

variable {fuel room : Nat}

/-- A reader of several parts may as well start before the blanks in front of
them. -/
theorem IsSound.behind_blanks {α : Type} {read : List Char → Except Stop (α × List Char)}
    {Spells : α → List Char → Prop} {close : List Char} (h : IsSound read Spells close)
    (hblanks : ∀ ⦃b t : List Char⦄ ⦃a : α⦄, Blanks b → Spells a t → Spells a (b ++ t))
    {cs left : List Char} {a : α} (hread : read (skip cs) = .ok (a, left)) :
    ∃ t, cs = t ++ (close ++ left) ∧ Spells a t := by
  obtain ⟨t, ht, ha⟩ := h hread
  obtain ⟨b, hb, rfl⟩ := exists_of_skip_eq ht
  exact ⟨b ++ t, by simp, hblanks hb ha⟩

theorem value_isSound (hitems : ∀ room, IsSound (items fuel room) Items [']'])
    (hmembers : ∀ room, IsSound (members fuel room) Members ['\x7d']) (room : Nat) :
    IsSound (value (fuel + 1) room) Value [] := by
  intro cs v left h
  unfold value at h
  split at h
  · cases h
  · next rest _ =>
    obtain ⟨⟨s, left'⟩, hs, hv⟩ := bind_eq_ok.mp h
    cases hv
    obtain ⟨t, ht, hs⟩ := string_eq_ok_iff.mp hs
    exact ⟨t, ht, .str hs⟩
  · cases h
  · next fuel' room rest heq =>
    cases heq
    split at h
    · next left' hskip =>
      cases h
      obtain ⟨b, hb, rfl⟩ := exists_of_skip_eq hskip
      exact ⟨'[' :: b ++ [']'], by simp, .emptyArr hb⟩
    · obtain ⟨⟨vs, left'⟩, hvs, hv⟩ := bind_eq_ok.mp h
      cases hv
      obtain ⟨t, rfl, ht⟩ := (hitems room).behind_blanks (fun _ _ _ => Items.blanks_append) hvs
      exact ⟨'[' :: t ++ [']'], by simp, .arr ht⟩
  · cases h
  · next fuel' room rest heq =>
    cases heq
    split at h
    · next left' hskip =>
      cases h
      obtain ⟨b, hb, rfl⟩ := exists_of_skip_eq hskip
      exact ⟨'\x7b' :: b ++ ['\x7d'], by simp, .emptyObj hb⟩
    · obtain ⟨⟨ms, left'⟩, hms, hv⟩ := bind_eq_ok.mp h
      cases hv
      obtain ⟨t, rfl, ht⟩ :=
        (hmembers room).behind_blanks (fun _ _ _ => Members.blanks_append) hms
      exact ⟨'\x7b' :: t ++ ['\x7d'], by simp, .obj ht⟩
  · exact value_of_atom h

theorem items_isSound (hvalue : IsSound (value fuel room) Value [])
    (hitems : IsSound (items fuel room) Items [']']) :
    IsSound (items (fuel + 1) room) Items [']'] := by
  intro cs vs left h
  unfold items at h
  obtain ⟨⟨v, behind⟩, hv, hread⟩ := bind_eq_ok.mp h
  obtain ⟨t, rfl, ht⟩ := hvalue hv
  dsimp only at hread
  split at hread
  · next rest hskip =>
    cases hread
    obtain ⟨b, hb, rfl⟩ := exists_of_skip_eq hskip
    exact ⟨[] ++ t ++ b, by simp, .last (.mk nofun ht hb)⟩
  · next rest hskip =>
    obtain ⟨⟨ws, left'⟩, hws, hvs⟩ := bind_eq_ok.mp hread
    cases hvs
    obtain ⟨b, hb, rfl⟩ := exists_of_skip_eq hskip
    obtain ⟨u, rfl, hu⟩ := hitems.behind_blanks (fun _ _ _ => Items.blanks_append) hws
    exact ⟨[] ++ t ++ b ++ ',' :: u, by simp, .cons (.mk nofun ht hb) hu⟩
  · cases hread

theorem members_isSound (hvalue : IsSound (value fuel room) Value [])
    (hmembers : IsSound (members fuel room) Members ['\x7d']) :
    IsSound (members (fuel + 1) room) Members ['\x7d'] := by
  intro cs ms left h
  unfold members at h
  split at h
  · cases h
  · next fuel' rest heq =>
    cases heq
    obtain ⟨⟨key, afterKey⟩, hstring, hcolon⟩ := bind_eq_ok.mp h
    obtain ⟨k, hk, hkey⟩ := string_eq_ok_iff.mp hstring
    rw [hk]
    dsimp only at hcolon
    split at hcolon
    · next afterColon hafterKey =>
      obtain ⟨b, hb, rfl⟩ := exists_of_skip_eq hafterKey
      obtain ⟨⟨v, behind⟩, hread, hbehind⟩ := bind_eq_ok.mp hcolon
      obtain ⟨t, hafterColon, hv⟩ := hvalue hread
      obtain ⟨b', hb', rfl⟩ := exists_of_skip_eq hafterColon
      dsimp only at hbehind
      split at hbehind
      · next rest' hskip =>
        cases hbehind
        obtain ⟨b'', hb'', rfl⟩ := exists_of_skip_eq hskip
        exact ⟨[] ++ k ++ b ++ ':' :: (b' ++ t ++ b''), by simp,
          .last (.mk nofun hkey hb (.mk hb' hv hb''))⟩
      · next rest' hskip =>
        obtain ⟨⟨ns, left'⟩, hns, hms⟩ := bind_eq_ok.mp hbehind
        cases hms
        obtain ⟨b'', hb'', rfl⟩ := exists_of_skip_eq hskip
        obtain ⟨u, rfl, hu⟩ := hmembers.behind_blanks (fun _ _ _ => Members.blanks_append) hns
        exact ⟨[] ++ k ++ b ++ ':' :: (b' ++ t ++ b'') ++ ',' :: u, by simp,
          .cons (.mk nofun hkey hb (.mk hb' hv hb'')) hu⟩
      · cases hbehind
    · cases hcolon
  · cases h

end Sound

/-- **What is read is spelled**, with any fuel and any room. -/
theorem isSound (fuel room : Nat) :
    IsSound (value fuel room) Value [] ∧ IsSound (items fuel room) Items [']'] ∧
      IsSound (members fuel room) Members ['\x7d'] := by
  induction fuel generalizing room with
  | zero => exact ⟨nofun, nofun, nofun⟩
  | succ fuel ih =>
    obtain ⟨hvalue, hitems, hmembers⟩ := ih room
    exact ⟨value_isSound (fun room => (ih room).2.1) (fun room => (ih room).2.2) room,
      items_isSound hvalue hitems, members_isSound hvalue hmembers⟩

/-! ## What is spelled is read -/

/-- Whatever a value reader is given to read that is spelled by no more than
`n` characters is read, where it ends, unless it is beyond a limit. -/
def ReadsValues (read : List Char → Except Stop (Json × List Char)) (room n : Nat) : Prop :=
  ∀ ⦃v t rest⦄, Value v t → t.length ≤ n → IsEnd rest →
    read (t ++ rest) = within (v.excess? room) v rest

/-- Whatever a reader of several parts is given to read that is spelled by
fewer than `n` characters is read, up to its closing mark, unless a part of it
is beyond a limit. The reader starts behind the blanks. -/
def ReadsParts {α : Type} (read : List Char → Except Stop (α × List Char))
    (Spells : α → List Char → Prop) (excess : α → Option Limit) (close : Char) (n : Nat) : Prop :=
  ∀ ⦃a t⦄ (rest), Spells a t → t.length < n →
    read (skip (t ++ close :: rest)) = within (excess a) a rest

/-- What is done with a value once it is read. -/
theorem within_map {α β : Type} (excess : Option Limit) (a : α) (left : List Char) (f : α → β) :
    (do let (a, left) ← within excess a left; return (f a, left)) = within excess (f a) left := by
  cases excess <;> rfl

/-- The first of two limits counts. -/
theorem within_or {α β : Type} {first second : Option Limit} {a : α} {b : β} {left rest : List Char}
    {f : α × List Char → Except Stop (β × List Char)}
    (hf : first = none → f (a, left) = within second b rest) :
    (within first a left >>= f) = within (first.or second) b rest := by
  cases first with
  | none => exact hf rfl
  | some l => rfl

section Complete

variable {fuel room : Nat}

/-- Anything that opens neither a string nor an array nor an object is read
as a value without parts. -/
theorem value_of_notMem_openings {c : Char} (h : c ∉ openings) (cs : List Char) :
    value (fuel + 1) room (c :: cs) = atom (c :: cs) := by
  simp only [openings, List.mem_cons, List.not_mem_nil, or_false, not_or] at h
  rw [value]
  · rintro rest heq
    exact h.1 (List.cons.inj heq).1
  · rintro rest - heq
    exact h.2.1 (List.cons.inj heq).1
  · rintro _ rest - heq
    exact h.2.1 (List.cons.inj heq).1
  · rintro rest - heq
    exact h.2.2 (List.cons.inj heq).1
  · rintro _ rest - heq
    exact h.2.2 (List.cons.inj heq).1

/-- Behind the blanks before it, a value begins. -/
theorem Element.exists_skip {v : Json} {t : List Char} (h : Element v t) (more : List Char) :
    ∃ c u, skip (t ++ more) = c :: u ∧ IsStart c := by
  cases h with
  | @mk v before t behind hbefore hv hbehind =>
    obtain ⟨c, u, rfl, hc⟩ := hv.exists_start
    refine ⟨c, u ++ (behind ++ more), ?_, hc⟩
    rw [List.append_assoc, List.append_assoc, skip_blanks hbefore, List.cons_append,
      skip_cons_of_not_blank hc.1]

theorem Items.exists_skip {vs : List Json} {t : List Char} (h : Items vs t)
    (more : List Char) : ∃ c u, skip (t ++ more) = c :: u ∧ IsStart c := by
  cases h with
  | last he => exact he.exists_skip more
  | cons he _ =>
    rw [List.append_assoc]
    exact he.exists_skip _

theorem Member.exists_skip {m : WideString × Json} {t : List Char} (h : Member m t)
    (more : List Char) : ∃ u, skip (t ++ more) = '"' :: u := by
  cases h with
  | @mk key v before k behind t hbefore hkey hbehind he =>
    obtain ⟨u, rfl⟩ := hkey.exists_quote
    refine ⟨u ++ (behind ++ (':' :: t ++ more)), ?_⟩
    rw [List.append_assoc, List.append_assoc, List.append_assoc, skip_blanks hbefore,
      List.cons_append, skip_cons_of_not_blank rfl]

theorem Members.exists_skip {ms : List (WideString × Json)} {t : List Char} (h : Members ms t)
    (more : List Char) : ∃ u, skip (t ++ more) = '"' :: u := by
  cases h with
  | last hm => exact hm.exists_skip more
  | cons hm _ =>
    rw [List.append_assoc]
    exact hm.exists_skip _

/-- Where there is room for it, an array is read as its elements are, -/
theorem value_of_items
    (hitems : ReadsParts (items fuel room) Items (itemsExcess? room) ']' fuel) {vs : List Json}
    {t : List Char} (h : Items vs t) (hlength : t.length < fuel) (rest : List Char) :
    value (fuel + 1) (room + 1) ('[' :: (t ++ ']' :: rest))
      = within (itemsExcess? room vs) (.arr vs) rest := by
  obtain ⟨c, u, hskip, hc⟩ := h.exists_skip (']' :: rest)
  rw [value]
  split
  · next left heq =>
    rw [hskip] at heq
    exact absurd (List.cons.inj heq).1 hc.2.1
  · rw [hitems rest h hlength]
    exact within_map _ vs rest Json.arr

/-- and an object as its members are. -/
theorem value_of_members
    (hmembers : ReadsParts (members fuel room) Members (membersExcess? room) '\x7d' fuel)
    {ms : List (WideString × Json)} {t : List Char} (h : Members ms t) (hlength : t.length < fuel)
    (rest : List Char) :
    value (fuel + 1) (room + 1) ('\x7b' :: (t ++ '\x7d' :: rest))
      = within (membersExcess? room ms) (.obj ms) rest := by
  obtain ⟨u, hskip⟩ := h.exists_skip ('\x7d' :: rest)
  rw [value]
  split
  · next left heq =>
    rw [hskip] at heq
    cases heq
  · rw [hmembers rest h hlength]
    exact within_map _ ms rest Json.obj

theorem value_readsValues
    (hitems : ∀ room, ReadsParts (items fuel room) Items (itemsExcess? room) ']' fuel)
    (hmembers : ∀ room, ReadsParts (members fuel room) Members (membersExcess? room) '\x7d' fuel)
    (room : Nat) : ReadsValues (value (fuel + 1) room) room (fuel + 1) := by
  intro v t rest hv hlength hrest
  cases hv with
  | name h =>
    obtain ⟨c, u, rfl, -, hc⟩ := exists_start_of_name h
    rw [List.cons_append, value_of_notMem_openings hc]
    exact atom_of_name h room rest
  | number h =>
    obtain ⟨c, u, rfl, -, hc⟩ := exists_start_of_number h
    rw [List.cons_append, value_of_notMem_openings hc]
    exact atom_of_number h hrest room
  | @str s t h =>
    obtain ⟨u, rfl⟩ := h.exists_quote
    have hread : string (u ++ rest) = .ok (s, rest) := string_eq_ok_iff.mpr ⟨'"' :: u, rfl, h⟩
    rw [List.cons_append, value, hread]
    rfl
  | @emptyArr b hb =>
    rw [List.append_assoc, List.cons_append]
    cases room with
    | zero => rw [value]; rfl
    | succ room => rw [value, skip_blanks hb]; rfl
  | @arr vs t h =>
    rw [List.append_assoc, List.cons_append, List.singleton_append]
    cases room with
    | zero => rw [value]; rfl
    | succ room => exact value_of_items (hitems room) h (by simp at hlength; omega) rest
  | @emptyObj b hb =>
    rw [List.append_assoc, List.cons_append]
    cases room with
    | zero => rw [value]; rfl
    | succ room => rw [value, skip_blanks hb]; rfl
  | @obj ms t h =>
    rw [List.append_assoc, List.cons_append, List.singleton_append]
    cases room with
    | zero => rw [value]; rfl
    | succ room => exact value_of_members (hmembers room) h (by simp at hlength; omega) rest

/-- A value with blanks around it is read, once the blanks before it are
skipped; then those behind it are skipped. -/
theorem Element.read {n : Nat} (hvalue : ReadsValues (value fuel room) room n) {v : Json}
    {t : List Char} (h : Element v t) (hlength : t.length ≤ n) {c : Char}
    (hc : c ∈ [',', ']', '\x7d']) (rest : List Char) :
    ∃ left, value fuel room (skip (t ++ c :: rest)) = within (v.excess? room) v left ∧
      skip left = c :: rest := by
  cases h with
  | @mk v before t behind hbefore hv hbehind =>
    obtain ⟨d, u, rfl, hd⟩ := hv.exists_start
    refine ⟨behind ++ c :: rest, ?_, ?_⟩
    · rw [List.append_assoc, List.append_assoc, skip_blanks hbefore, List.cons_append,
        skip_cons_of_not_blank hd.1, ← List.cons_append]
      exact hvalue hv (by simp at hlength ⊢; omega) (hbehind.isEnd (isEnd_cons hc rest))
    · rw [skip_blanks hbehind]
      simp only [List.mem_cons, List.not_mem_nil, or_false] at hc
      rcases hc with rfl | rfl | rfl <;> rfl

theorem items_readsParts (hvalue : ReadsValues (value fuel room) room fuel)
    (hitems : ReadsParts (items fuel room) Items (itemsExcess? room) ']' fuel) :
    ReadsParts (items (fuel + 1) room) Items (itemsExcess? room) ']' (fuel + 1) := by
  intro vs t rest h hlength
  rw [items]
  cases h with
  | @last v t he =>
    obtain ⟨left, hread, hskip⟩ := he.read hvalue (by omega) (c := ']') (by simp) rest
    rw [hread]
    refine within_or fun _ => ?_
    dsimp only
    rw [hskip]
    rfl
  | @cons v vs t u he hrest =>
    rw [List.length_append, List.length_cons] at hlength
    obtain ⟨left, hread, hskip⟩ :=
      he.read hvalue (by omega) (c := ',') (by simp) (u ++ ']' :: rest)
    have hmore : (items fuel room (skip (u ++ ']' :: rest)) >>= fun x => .ok (v :: x.1, x.2))
        = within (itemsExcess? room vs) (v :: vs) rest := by
      rw [hitems rest hrest (by omega)]
      exact within_map _ vs rest (v :: ·)
    rw [List.append_assoc, List.cons_append, hread]
    refine within_or fun _ => ?_
    dsimp only
    rw [hskip]
    exact hmore

/-- The key of a member and the colon behind it are read, once the blanks
before it are skipped. -/
theorem Literal.read {key : WideString} {before k behind : List Char} (hbefore : Blanks before)
    (hkey : Literal key k) (hbehind : Blanks behind) (more : List Char) :
    ∃ rest left, skip (before ++ k ++ behind ++ ':' :: more) = '"' :: rest ∧
      string rest = .ok (key, left) ∧ skip left = ':' :: more := by
  obtain ⟨u, rfl⟩ := hkey.exists_quote
  refine ⟨u ++ (behind ++ ':' :: more), behind ++ ':' :: more, ?_, ?_, ?_⟩
  · rw [List.append_assoc, List.append_assoc, skip_blanks hbefore, List.cons_append,
      skip_cons_of_not_blank rfl]
  · exact string_eq_ok_iff.mpr ⟨'"' :: u, rfl, hkey⟩
  · rw [skip_blanks hbehind, skip_cons_of_not_blank rfl]

/-- What is done behind a member, once the blanks behind it are skipped. -/
def behindMember (fuel room : Nat) (m : WideString × Json) :
    List Char → Except Stop (List (WideString × Json) × List Char)
  | '\x7d' :: rest => return ([m], rest)
  | ',' :: rest => do
    let (ms, left) ← members fuel room (skip rest)
    return (m :: ms, left)
  | other => .error (.fault .expectingComma other)

/-- A member is read, once the blanks before it are skipped. -/
theorem Member.read {n : Nat} (hvalue : ReadsValues (value fuel room) room n)
    {m : WideString × Json} {t : List Char} (h : Member m t) (hlength : t.length ≤ n) {c : Char}
    (hc : c ∈ [',', ']', '\x7d']) (rest : List Char) :
    members (fuel + 1) room (skip (t ++ c :: rest))
      = (within (m.2.excess? room) m (c :: rest) >>= fun x => behindMember fuel room x.1 x.2) := by
  cases h with
  | @mk key v before k behind t hbefore hkey hbehind he =>
    rw [List.length_append, List.length_cons] at hlength
    obtain ⟨left, hread, hskip⟩ := he.read hvalue (by omega) hc rest
    obtain ⟨text, afterKey, htext, hstring, hcolon⟩ :=
      hkey.read hbefore hbehind (t ++ c :: rest)
    rw [List.append_assoc, List.cons_append, htext, members, hstring, ok_bind]
    dsimp only
    rw [hcolon]
    show (value fuel room (skip (t ++ c :: rest)) >>= _) = _
    rw [hread]
    cases v.excess? room with
    | none =>
      dsimp only [within]
      rw [ok_bind, ok_bind, hskip]
      rfl
    | some l => rfl

theorem members_readsParts (hvalue : ReadsValues (value fuel room) room fuel)
    (hmembers : ReadsParts (members fuel room) Members (membersExcess? room) '\x7d' fuel) :
    ReadsParts (members (fuel + 1) room) Members (membersExcess? room) '\x7d' (fuel + 1) := by
  intro ms t rest h hlength
  cases h with
  | last hm =>
    rw [hm.read hvalue (by omega) (by simp)]
    exact within_or fun _ => rfl
  | @cons m ms t u hm hrest =>
    rw [List.length_append, List.length_cons] at hlength
    rw [List.append_assoc, List.cons_append, hm.read hvalue (by omega) (by simp)]
    refine within_or fun _ => ?_
    rw [behindMember, hmembers rest hrest (by omega)]
    exact within_map _ ms rest (m :: ·)

end Complete

/-- **What is spelled is read**, with enough fuel, unless it is beyond a limit. -/
theorem readsValues (fuel room : Nat) :
    ReadsValues (value fuel room) room fuel ∧
      ReadsParts (items fuel room) Items (itemsExcess? room) ']' fuel ∧
      ReadsParts (members fuel room) Members (membersExcess? room) '\x7d' fuel := by
  induction fuel generalizing room with
  | zero =>
    refine ⟨fun v t rest h hlength _ => ?_, fun _ _ _ _ h => absurd h (Nat.not_lt_zero _),
      fun _ _ _ _ h => absurd h (Nat.not_lt_zero _)⟩
    obtain ⟨c, u, rfl, -⟩ := h.exists_start
    cases hlength
  | succ fuel ih =>
    obtain ⟨hvalue, hitems, hmembers⟩ := ih room
    exact ⟨value_readsValues (fun room => (ih room).2.1) (fun room => (ih room).2.2) room,
      items_readsParts hvalue hitems, members_readsParts hvalue hmembers⟩

/-! ## Documents -/

/-- A document does not start with a byte order mark. -/
theorem Document.head_ne {v : Json} {t : List Char} (h : Document v t) :
    t.head? ≠ some '\uFEFF' := by
  cases h with
  | @mk v before t behind hbefore hv hbehind =>
    cases before with
    | nil =>
      obtain ⟨c, u, rfl, hc⟩ := hv.exists_start
      exact fun h => hc.2.2 (Option.some.inj h)
    | cons c before =>
      intro h
      obtain rfl : c = '\uFEFF' := Option.some.inj h
      exact absurd (hbefore _ (.head _)) (by decide)

/-- What is read is a document. -/
theorem document_of_read {room : Nat} {v : Json} {cs : List Char}
    (h : document room cs = .ok v) : Document v cs := by
  unfold document at h
  split at h
  case isTrue => cases h
  case isFalse =>
    obtain ⟨⟨w, left⟩, hvalue, hread⟩ := bind_eq_ok.mp h
    obtain ⟨t, ht, hw⟩ := (isSound _ _).1 hvalue
    obtain ⟨b, hb, rfl⟩ := exists_of_skip_eq ht
    dsimp only at hread
    split at hread
    · next hskip =>
      cases hread
      obtain ⟨b', hb', rfl⟩ := exists_of_skip_eq hskip
      rw [List.nil_append, List.append_nil, ← List.append_assoc]
      exact .mk hb hw hb'
    · cases hread

/-- **A document is read as it is spelled**, unless its value is beyond a limit;
then this is what it is refused for. -/
theorem document_of_document {v : Json} {cs : List Char} (h : Document v cs) (room : Nat) :
    (v.excess? room = none → document room cs = .ok v) ∧
      ∀ l, v.excess? room = some l → document room cs = .error (.limit l) := by
  have hhead := h.head_ne
  cases h with
  | @mk v before t behind hbefore hv hbehind =>
    obtain ⟨c, u, rfl, hc⟩ := hv.exists_start
    have hskip : skip (before ++ c :: u ++ behind) = c :: u ++ behind := by
      rw [List.append_assoc, skip_blanks hbefore, List.cons_append,
        skip_cons_of_not_blank hc.1]
    have hend : IsEnd (behind ++ []) := hbehind.isEnd nofun
    have hnothing : skip (behind ++ []) = [] := skip_blanks hbehind []
    rw [List.append_nil] at hend hnothing
    rw [document, if_neg hhead, hskip, (readsValues _ room).1 hv (by simp; omega) hend]
    constructor
    · intro hnone
      rw [hnone]
      dsimp only [within]
      rw [ok_bind]
      dsimp only
      rw [hnothing]
      rfl
    · intro l hl
      rw [hl]
      rfl

/-- **What is read are the documents** whose values are within the limits. -/
theorem document_eq_ok_iff {room : Nat} {v : Json} {cs : List Char} :
    document room cs = .ok v ↔ Document v cs ∧ v.excess? room = none := by
  refine ⟨fun h => ?_, fun ⟨hv, hnone⟩ => (document_of_document hv room).1 hnone⟩
  have hv := document_of_read h
  cases hexcess : v.excess? room with
  | none => exact ⟨hv, rfl⟩
  | some l => cases h.symm.trans ((document_of_document hv room).2 l hexcess)

end ChangeReview.Json
