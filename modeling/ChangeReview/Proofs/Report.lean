import Mathlib.Data.List.Forall2
import ChangeReview.Proofs.Json.Limits
import ChangeReview.Report

/-!
# What a report says

A report is read in two steps, and either can fail: its text has to be a
document, and the document has to list its findings. What is found is then
read from the entries of the list without fail, whatever they are, each piece
from its own place. Such a place is a way of keys; where a key stands more
than once in an object, the last one counts, on every part of the way
(`Json.At`).

Put together, the text alone decides which of three things happens, as long as
the reader meets none of its limits (`Diagnostic.parse_iff`). A document that
is beyond a limit is refused for it, although the report may be in order; and a
text that is no document may be refused for a limit as well, where the reader
meets one before it finds the fault.
-/

namespace ChangeReview

namespace Json

/-! ## Values at the end of a way -/

/-- The value at the end of a way of keys: each key leads to the last member
that has it. -/
inductive At : Json → List String → Json → Prop
  | here {v : Json} : At v [] v
  | under {key : String} {keys : List String} {before after : List (WideString × Json)} {v w : Json}
      (last : ∀ m ∈ after, m.1 ≠ .ofString key) : At v keys w →
      At (.obj (before ++ (.ofString key, v) :: after)) (key :: keys) w

/-- The integers that values stand for, truth values among them. -/
inductive StandsFor : Json → Int → Prop
  | int {n : Int} : StandsFor (.int n) n
  | true : StandsFor (.bool true) 1
  | false : StandsFor (.bool false) 0

/-- What is looked up is the last member that has the key. -/
theorem lookup_eq_some_iff {key : String} {members : List (WideString × Json)} {v : Json} :
    lookup key members = some v ↔ ∃ before after,
      members = before ++ (.ofString key, v) :: after ∧ ∀ m ∈ after, m.1 ≠ .ofString key := by
  unfold lookup
  constructor
  · intro h
    obtain ⟨⟨k, w⟩, hfind, rfl⟩ := Option.map_eq_some_iff.mp h
    obtain ⟨hk, as, bs, hsplit, has⟩ := List.find?_eq_some_iff_append.mp hfind
    obtain rfl := eq_of_beq hk
    refine ⟨bs.reverse, as.reverse, ?_, fun m hm => ?_⟩
    · rw [← List.reverse_reverse members, hsplit]
      simp
    · simpa using has m (List.mem_reverse.mp hm)
  · rintro ⟨before, after, rfl, hlast⟩
    refine Option.map_eq_some_iff.mpr ⟨(.ofString key, v), ?_, rfl⟩
    refine List.find?_eq_some_iff_append.mpr ⟨by simp, after.reverse, before.reverse, by simp, ?_⟩
    intro m hm
    simpa using hlast m (List.mem_reverse.mp hm)

/-- **A way leads where it is said to lead**, and nowhere else. -/
theorem at?_eq_some_iff {v w : Json} {keys : List String} :
    v.at? keys = some w ↔ v.At keys w := by
  induction keys generalizing v with
  | nil =>
    constructor
    · intro h
      cases h
      exact .here
    · intro h
      cases h
      rfl
  | cons key keys ih =>
    rw [at?, Option.bind_eq_some_iff]
    constructor
    · rintro ⟨u, hfield, hu⟩
      cases v with
      | obj members =>
        obtain ⟨before, after, rfl, hlast⟩ := lookup_eq_some_iff.mp hfield
        exact .under hlast (ih.mp hu)
      | _ => cases hfield
    · intro h
      cases h with
      | @under _ _ before after u _ hlast hu =>
        exact ⟨u, lookup_eq_some_iff.mpr ⟨before, after, rfl, hlast⟩, ih.mpr hu⟩

theorem str?_eq_some_iff {v : Json} {s : WideString} : v.str? = some s ↔ v = .str s := by
  cases v <;> simp [str?]

theorem int?_eq_some_iff {v : Json} {n : Int} : v.int? = some n ↔ v.StandsFor n := by
  constructor
  · intro h
    unfold int? at h
    split at h
    · cases h
      exact .int
    · next b =>
      cases h
      cases b
      · exact .false
      · exact .true
    · cases h
  · intro h
    cases h <;> rfl

end Json

/-! ## Names of files -/

namespace WideString

/-- A text of characters is written as it is. -/
@[simp] theorem text_ofString (s : String) : (ofString s).text = .ok s := by
  have hchars (position : Nat) (cs : List Char) : charsFrom position (cs.map .char) = .ok cs := by
    induction cs generalizing position with
    | nil => rfl
    | cons c cs ih => rw [List.map_cons, charsFrom, ih]; rfl
  rw [text, ofString, hchars]
  exact congrArg Except.ok String.ofList_toList

end WideString

/-- A name of characters is a path. -/
@[simp] theorem FileName.ofText_ofString (s : String) : ofText s = .path (.ofString s) := by
  rw [ofText, WideString.text_ofString]

/-! ## Entries -/

/-- A finding is what an entry says: each piece of it is known exactly if the
value at its place is of the right kind, and then it is what this value
says. -/
structure Diagnostic.IsReadFrom (d : Diagnostic) (entry : Json) : Prop where
  file : ∀ name, d.file = some name ↔ ∃ s, entry.At ["file"] (.str s) ∧ FileName.ofText s = name
  severity : ∀ s, d.severity = some s ↔ entry.At ["severity"] (.str s)
  startLine : ∀ n, d.startLine = some n
    ↔ ∃ v, entry.At ["range", "start", "line"] v ∧ v.StandsFor n
  endLine : ∀ n, d.endLine = some n ↔ ∃ v, entry.At ["range", "end", "line"] v ∧ v.StandsFor n
  message : ∀ s, d.message = some s ↔ entry.At ["message"] (.str s)

namespace Diagnostic

/-- The text at the end of a way. -/
theorem str?_at?_eq_some_iff {entry : Json} {keys : List String} {s : WideString} :
    (entry.at? keys).bind Json.str? = some s ↔ entry.At keys (.str s) := by
  rw [Option.bind_eq_some_iff]
  constructor
  · rintro ⟨v, hv, hs⟩
    obtain rfl := Json.str?_eq_some_iff.mp hs
    exact Json.at?_eq_some_iff.mp hv
  · exact fun h => ⟨.str s, Json.at?_eq_some_iff.mpr h, rfl⟩

/-- The integer at the end of a way. -/
theorem int?_at?_eq_some_iff {entry : Json} {keys : List String} {n : Int} :
    (entry.at? keys).bind Json.int? = some n ↔ ∃ v, entry.At keys v ∧ v.StandsFor n := by
  simp only [Option.bind_eq_some_iff, Json.at?_eq_some_iff, Json.int?_eq_some_iff]

theorem isReadFrom_ofJson (entry : Json) : (ofJson entry).IsReadFrom entry where
  file p := by
    simp only [ofJson, Option.map_eq_some_iff, str?_at?_eq_some_iff]
  severity _ := str?_at?_eq_some_iff
  startLine _ := int?_at?_eq_some_iff
  endLine _ := int?_at?_eq_some_iff
  message _ := str?_at?_eq_some_iff

/-- **An entry says one finding**, the one that is read from it. -/
theorem isReadFrom_iff {d : Diagnostic} {entry : Json} :
    d.IsReadFrom entry ↔ d = ofJson entry := by
  constructor
  · intro h
    have hentry := isReadFrom_ofJson entry
    have hfile := Option.ext fun p => (h.file p).trans (hentry.file p).symm
    have hseverity := Option.ext fun s => (h.severity s).trans (hentry.severity s).symm
    have hstart := Option.ext fun n => (h.startLine n).trans (hentry.startLine n).symm
    have hend := Option.ext fun n => (h.endLine n).trans (hentry.endLine n).symm
    have hmessage := Option.ext fun s => (h.message s).trans (hentry.message s).symm
    calc d = ⟨d.file, d.severity, d.startLine, d.endLine, d.message⟩ := rfl
      _ = ofJson entry := by rw [hfile, hseverity, hstart, hend, hmessage]
  · rintro rfl
    exact isReadFrom_ofJson entry

theorem forall₂_isReadFrom_iff {ds : List Diagnostic} {entries : List Json} :
    List.Forall₂ IsReadFrom ds entries ↔ ds = entries.map ofJson := by
  have heq : ds = entries.map ofJson ↔ List.Forall₂ (· = ofJson ·) ds entries := by
    rw [← List.forall₂_map_right_iff, List.forall₂_eq_eq_eq]
  rw [heq]
  exact ⟨.imp fun _ _ => isReadFrom_iff.mp, .imp fun _ _ => isReadFrom_iff.mpr⟩

/-! ## Whole reports -/

/-- A document that lists entries says what they say. -/
theorem ofDocument_of_at {v : Json} {entries : List Json}
    (h : v.At ["diagnostics"] (.arr entries)) : ofDocument v = .ok (entries.map ofJson) := by
  cases h with
  | @under _ _ before after w _ hlast hw =>
    cases hw
    rw [ofDocument, Json.lookup_eq_some_iff.mpr ⟨before, after, rfl, hlast⟩]

/-- Any other document is refused for its shape. -/
theorem ofDocument_of_not_at {v : Json} (h : ¬ ∃ entries, v.At ["diagnostics"] (.arr entries)) :
    (∃ kind, ofDocument v = .error (.notObject kind)) ∨ ofDocument v = .error .noDiagnostics := by
  cases v with
  | obj members =>
    right
    unfold ofDocument
    dsimp only
    split
    · next entries hlookup =>
      obtain ⟨before, after, rfl, hlast⟩ := Json.lookup_eq_some_iff.mp hlookup
      exact absurd ⟨entries, .under hlast .here⟩ h
    · rfl
  | _ => exact .inl ⟨_, rfl⟩

variable {room : Nat} {report : String}

/-- A report that is a document says what this says, -/
theorem parse_of_document {v : Json} (h : Json.Document v report.toList)
    (hexcess : v.excess? room = none) : parse room report = ofDocument v := by
  rw [parse, Json.parse, (Json.document_of_document h room).1 hexcess]
  rfl

/-- unless it is beyond a limit. -/
theorem parse_of_excess {v : Json} {l : Json.Limit} (h : Json.Document v report.toList)
    (hexcess : v.excess? room = some l) : parse room report = .error (.limit l) := by
  rw [parse, Json.parse, (Json.document_of_document h room).2 l hexcess]
  rfl

/-- What is no document is refused as malformed, unless a limit is met first. -/
theorem malformed_or_limit (h : ¬ ∃ v, Json.Document v report.toList) (room : Nat) :
    (∃ e, parse room report = .error (.malformed e)) ∨
      ∃ l, parse room report = .error (.limit l) := by
  rw [parse, Json.parse]
  cases hread : Json.document room report.toList with
  | error stop =>
    cases stop with
    | fault reason rest => exact .inl ⟨_, rfl⟩
    | limit l => exact .inr ⟨l, rfl⟩
  | ok v => exact absurd ⟨v, Json.document_of_read hread⟩ h

/-- What a document says is not refused as malformed, nor for a limit. -/
theorem ofDocument_ne (v : Json) :
    (∀ e, ofDocument v ≠ .error (.malformed e)) ∧ ∀ l, ofDocument v ≠ .error (.limit l) := by
  unfold ofDocument
  split
  · split <;> exact ⟨nofun, nofun⟩
  · exact ⟨nofun, nofun⟩

/-- A report that is refused for its shape, or accepted, is a document within
the limits. -/
theorem exists_document_of_parse {x : Except ReportError (List Diagnostic)}
    (h : parse room report = x) (hmalformed : ∀ e, x ≠ .error (.malformed e))
    (hlimit : ∀ l, x ≠ .error (.limit l)) :
    ∃ v, Json.Document v report.toList ∧ v.excess? room = none ∧ ofDocument v = x := by
  subst h
  by_cases hdoc : ∃ v, Json.Document v report.toList
  · obtain ⟨v, hv⟩ := hdoc
    cases hexcess : v.excess? room with
    | none => exact ⟨v, hv, hexcess, (parse_of_document hv hexcess).symm⟩
    | some l => exact absurd (parse_of_excess hv hexcess) (hlimit l)
  · rcases malformed_or_limit hdoc room with ⟨e, he⟩ | ⟨l, hl⟩
    · exact absurd he (hmalformed e)
    · exact absurd hl (hlimit l)

/-- A document lists entries exactly if it is not refused for its shape. -/
theorem ofDocument_eq_ok_iff {v : Json} {ds : List Diagnostic} :
    ofDocument v = .ok ds ↔ ∃ entries, v.At ["diagnostics"] (.arr entries) ∧
      ds = entries.map ofJson := by
  by_cases hat : ∃ entries, v.At ["diagnostics"] (.arr entries)
  · obtain ⟨entries, hentries⟩ := hat
    constructor
    · intro h
      rw [ofDocument_of_at hentries] at h
      exact ⟨entries, hentries, (Except.ok.inj h).symm⟩
    · rintro ⟨entries', hentries', rfl⟩
      exact ofDocument_of_at hentries'
  · refine iff_of_false (fun h => ?_) fun ⟨entries, hentries, _⟩ => hat ⟨entries, hentries⟩
    rcases ofDocument_of_not_at hat with ⟨kind, herror⟩ | herror
    · cases herror.symm.trans h
    · cases herror.symm.trans h

/-- A limit is met only in a report that goes beyond it. -/
theorem exceeded_of_parse {l : Json.Limit} (h : parse room report = .error (.limit l)) :
    l.Exceeded room report.toList := by
  rw [parse, Json.parse] at h
  cases hread : Json.document room report.toList with
  | ok v =>
    rw [hread] at h
    exact absurd h ((ofDocument_ne v).2 l)
  | error stop =>
    rw [hread] at h
    cases stop with
    | fault reason rest => cases h
    | limit l' =>
      cases h
      exact Json.exceeded_of_document hread

/-- **What a report comes to.** A limit is met only in a report whose text goes
beyond it, and a report that is a document is refused for a limit exactly if
its value is beyond this limit. A report is refused as malformed exactly if its
text is no document, unless a limit is met first. It is refused for its shape
exactly if it is a document within the limits that lists no findings: one that
is no object, or whose last member of this name is missing or no array. And it
is accepted exactly if it is a document within the limits that lists findings;
then exactly one finding is read from each entry of the list, in order. -/
theorem parse_iff (room : Nat) (report : String) :
    (∀ l, parse room report = .error (.limit l) → l.Exceeded room report.toList) ∧
    (∀ v, Json.Document v report.toList →
      ∀ l, parse room report = .error (.limit l) ↔ v.excess? room = some l) ∧
    ((∃ e, parse room report = .error (.malformed e)) ↔
      (¬ ∃ v, Json.Document v report.toList) ∧ ¬ ∃ l, parse room report = .error (.limit l)) ∧
    ((∃ kind, parse room report = .error (.notObject kind)) ∨
        parse room report = .error .noDiagnostics ↔
      ∃ v, Json.Document v report.toList ∧ v.excess? room = none ∧
        ¬ ∃ entries, v.At ["diagnostics"] (.arr entries)) ∧
    ∀ ds, parse room report = .ok ds ↔
      ∃ v entries, Json.Document v report.toList ∧ v.excess? room = none ∧
        v.At ["diagnostics"] (.arr entries) ∧ List.Forall₂ IsReadFrom ds entries := by
  simp only [forall₂_isReadFrom_iff]
  refine ⟨fun l => exceeded_of_parse, fun v hv l => ⟨fun h => ?_, parse_of_excess hv⟩, ⟨?_, ?_⟩,
    ⟨fun h => ?_, ?_⟩, fun ds => ⟨fun h => ?_, ?_⟩⟩
  · cases hexcess : v.excess? room with
    | none => exact absurd ((parse_of_document hv hexcess).symm.trans h) ((ofDocument_ne v).2 l)
    | some l' => cases (parse_of_excess hv hexcess).symm.trans h; rfl
  · rintro ⟨e, he⟩
    refine ⟨fun ⟨v, hv⟩ => ?_, by simp [he]⟩
    cases hexcess : v.excess? room with
    | none => exact (ofDocument_ne v).1 e ((parse_of_document hv hexcess).symm.trans he)
    | some l => cases (parse_of_excess hv hexcess).symm.trans he
  · rintro ⟨hdoc, hlimit⟩
    exact (malformed_or_limit hdoc room).resolve_right hlimit
  · obtain ⟨v, hv, hexcess, hshape⟩ := @exists_document_of_parse room report _ rfl
      (by rcases h with ⟨kind, h⟩ | h <;> simp [h]) (by rcases h with ⟨kind, h⟩ | h <;> simp [h])
    refine ⟨v, hv, hexcess, fun ⟨entries, hentries⟩ => ?_⟩
    rw [← hshape, ofDocument_of_at hentries] at h
    rcases h with ⟨kind, h⟩ | h <;> cases h
  · rintro ⟨v, hv, hexcess, hat⟩
    rw [parse_of_document hv hexcess]
    exact ofDocument_of_not_at hat
  · obtain ⟨v, hv, hexcess, hds⟩ := exists_document_of_parse h nofun nofun
    obtain ⟨entries, hentries, rfl⟩ := ofDocument_eq_ok_iff.mp hds
    exact ⟨v, entries, hv, hexcess, hentries, rfl⟩
  · rintro ⟨v, entries, hv, hexcess, hentries, rfl⟩
    rw [parse_of_document hv hexcess, ofDocument_of_at hentries]

/-- A report that lists an integer, which says nothing of a finding. -/
def integerReport (digits : List Char) : String :=
  String.ofList ("\x7b\"diagnostics\":[".toList ++ digits ++ "]\x7d".toList)

/-- The report that lists an integer is a document. -/
theorem document_integerReport {w : List Char} (hw : Json.Whole w) :
    Json.Document (.obj [("diagnostics", .arr [.int (Text.value w)])])
      (integerReport w).toList := by
  have hblanks : Json.Blanks [] := Json.blanks_nil
  have hitems : Json.Items [.int (Text.value w)] ([] ++ w ++ []) :=
    .last (.mk hblanks (.number (.nat hw)) hblanks)
  have hkey := Json.literal_renderString "diagnostics"
  rw [show Json.renderString "diagnostics" = "\"diagnostics\"".toList by decide +kernel] at hkey
  have hmembers := Json.Members.last
    (.mk hblanks hkey hblanks (.mk hblanks (.arr hitems) hblanks))
  have hdocument : Json.Document _ _ := .mk hblanks (.obj hmembers) hblanks
  have htext : (integerReport w).toList
      = "\x7b\"diagnostics\":[".toList ++ w ++ "]\x7d".toList := String.toList_ofList
  rw [htext]
  simpa using hdocument

/-- It is refused for an integer that is too long. -/
theorem parse_integerReport {w : List Char} (hw : Json.Whole w) (hlong : Text.maxDigits < w.length)
    (room : Nat) : parse (room + 2) (integerReport w) = .error (.limit (.digits w.length)) := by
  refine parse_of_excess (document_integerReport hw) ?_
  have hinteger : Text.isLong (Text.value w) = true := by
    rwa [Text.isLong_iff, Int.natAbs_natCast, hw.digits_value]
  show Json.membersExcess? (room + 1) _ = _
  simp [Json.membersExcess?, Json.excess?, Json.itemsExcess?, Json.limit?, hinteger,
    hw.digits_value]

/-- **A list of findings is refused for an integer that is too long**, although
this integer says nothing of the one finding that is listed. -/
theorem parse_longIntegerReport :
    let report := integerReport (List.replicate 4301 '9')
    (∃ v entries, Json.Document v report.toList ∧ v.At ["diagnostics"] (.arr entries) ∧
      List.Forall₂ IsReadFrom [⟨none, none, none, none, none⟩] entries) ∧
    parse 1000 report = .error (.limit (.digits 4301)) := by
  have hw : Json.Whole (List.replicate 4301 '9') := by
    refine .digits ⟨List.cons_ne_nil '9' (List.replicate 4300 '9'), fun d hd => ?_⟩ (by decide)
    rw [List.eq_of_mem_replicate hd]
    rfl
  have hat := @Json.At.under "diagnostics" [] [] [] _ _ nofun
    (.here (v := .arr [.int (Text.value (List.replicate 4301 '9'))]))
  refine ⟨⟨_, _, document_integerReport hw, hat, ?_⟩, ?_⟩
  · rw [forall₂_isReadFrom_iff]
    rfl
  · have hparse := parse_integerReport hw (by rw [List.length_replicate]; decide) 998
    rwa [List.length_replicate] at hparse

end Diagnostic

end ChangeReview
