import ChangeReview.CommandLine
import ChangeReview.Proofs.Json.Strings

/-!
# Command lines that are accepted

A command line is accepted if its words fall into groups, each of which gives
one flag with its value, and if no flag refuses its value. That is a relation
(`Options.Takes`), and reading a command line comes to nothing else
(`Options.parse_eq_ok_iff`). So what a group gives does not depend on the
words around it: accepted command lines can be put together, and words that
give a flag can be put between any two groups.

What such words change is found by following the options that are read with
them and without them side by side. They start out different in one field, and
no flag makes them differ in another (`Options.Takes.simulates`).
-/

namespace ChangeReview

/-- The words that give a flag, and the value they set it to. -/
inductive Word.Gives : List Word → Flag → Option String → Prop
  /-- A flag with its value attached. -/
  | attached {w : Word} {f : Flag} {value : List Char}
      (hw : w = .long f (some value) ∨ w = .short f (some value)) (hf : f.takesValue = true) :
      Gives [w] f (if value = ['-', '-'] then none else some (String.ofList value))
  /-- A flag and a word with its value. -/
  | separate {w : Word} {f : Flag} {value : String} (hw : w = .long f none ∨ w = .short f none)
      (hf : f.takesValue = true) : Gives [w, .stray value] f (some value)
  /-- A flag that needs no value. -/
  | bare {w : Word} {f : Flag} (hw : w = .long f none ∨ w = .short f none)
      (hf : f.takesValue = false) : Gives [w] f none

/-- The word that asks for a format. -/
def Format.word : Format → String
  | .text => "text"
  | .json => "json"

namespace Options

/-- **The words of an accepted command line**: group by group, each gives a
flag that takes its value. -/
inductive Takes : Options → List Word → Options → Prop
  | nil {o : Options} : Takes o [] o
  | cons {o o₁ o₂ : Options} {ws rest : List Word} {f : Flag} {value : Option String}
      (hgives : Word.Gives ws f value) (hset : o.set f value = .ok o₁) (hrest : Takes o₁ rest o₂) :
      Takes o (ws ++ rest) o₂

variable {o o₁ o₂ : Options} {ws vs : List Word} {extra : List String}

/-! ## Words -/

/-- A group that gives a flag is taken in, whatever follows. -/
theorem ofWords_append_of_gives {f : Flag} {value : Option String} (hgives : Word.Gives ws f value)
    (o : Options) (extra : List String) (rest : List Word) :
    ofWords o extra (ws ++ rest) = o.set f value >>= fun o => ofWords o extra rest := by
  cases hgives with
  | attached hw hf =>
    rcases hw with rfl | rfl <;> rw [List.singleton_append, ofWords, if_pos hf] <;> rfl
  | separate hw hf =>
    rcases hw with rfl | rfl <;> rw [List.cons_append, List.singleton_append, ofWords, if_pos hf]
  | bare hw hf =>
    rcases hw with rfl | rfl <;> rw [List.singleton_append, ofWords.eq_def] <;>
      simp only [hf, Bool.false_eq_true, if_false]

/-- So are any number of groups. -/
theorem Takes.ofWords_append (h : Takes o ws o₁) (extra : List String) (rest : List Word) :
    ofWords o extra (ws ++ rest) = ofWords o₁ extra rest := by
  induction h with
  | nil => rfl
  | cons hgives hset _ ih =>
    rw [List.append_assoc, ofWords_append_of_gives hgives, hset]
    exact ih

/-- Words that are read to their end fall into groups, and none is left over. -/
theorem takes_of_ofWords (h : ofWords o extra ws = .ok o₁) : extra = [] ∧ Takes o ws o₁ := by
  have step {o : Options} {extra : List String} {ws rest : List Word} {f : Flag}
      {value : Option String} (hgives : Word.Gives ws f value)
      (ih : ∀ o : Options, ofWords o extra rest = .ok o₁ → extra = [] ∧ Takes o rest o₁)
      (h : (o.set f value >>= fun o => ofWords o extra rest) = .ok o₁) :
      extra = [] ∧ Takes o (ws ++ rest) o₁ := by
    obtain ⟨o₂, hset, hrest⟩ := bind_eq_ok.mp h
    exact ⟨(ih o₂ hrest).1, .cons hgives hset (ih o₂ hrest).2⟩
  fun_induction ofWords o extra ws with
  | case1 o =>
    cases h
    exact ⟨rfl, .nil⟩
  | case3 o extra f value rest hf ih => exact step (.attached (.inl rfl) hf) ih h
  | case5 o extra f value rest hf ih => exact step (.attached (.inr rfl) hf) ih h
  | case7 o extra f hf value rest ih => exact step (.separate (.inl rfl) hf) ih h
  | case9 o extra f rest hf ih => exact step (.bare (.inl rfl) (Bool.not_eq_true _ ▸ hf)) ih h
  | case10 o extra f hf value rest ih => exact step (.separate (.inr rfl) hf) ih h
  | case12 o extra f rest hf ih => exact step (.bare (.inr rfl) (Bool.not_eq_true _ ▸ hf)) ih h
  | case13 o extra w rest _ _ _ _ ih =>
    -- a word that there is no place for is never forgotten
    cases (ih h).1
  | _ => cases h

/-- Every word of a group is a flag or a stray word. -/
theorem Takes.word_cases (h : Takes o ws o₁) {w : Word} (hw : w ∈ ws) :
    (∃ f value, w = .long f value ∨ w = .short f value) ∨ ∃ text, w = .stray text := by
  induction h with
  | nil => cases hw
  | cons hgives _ _ ih =>
    rcases List.mem_append.mp hw with hw | hw
    · cases hgives with
      | attached hw' | bare hw' =>
        rw [List.mem_singleton.mp hw]
        exact .inl ⟨_, _, hw'⟩
      | separate hw' =>
        rcases List.mem_cons.mp hw with rfl | hw
        · exact .inl ⟨_, _, hw'⟩
        · exact .inr ⟨_, List.mem_singleton.mp hw⟩
    · exact ih hw

theorem Takes.append (h : Takes o ws o₁) (h' : Takes o₁ vs o₂) : Takes o (ws ++ vs) o₂ := by
  induction h with
  | nil => exact h'
  | cons hgives hset _ ih =>
    rw [List.append_assoc]
    exact .cons hgives hset (ih h')

/-- **What holds between options stays so** under the same words, if no flag
makes a difference. -/
theorem Takes.simulates {R : Options → Options → Prop}
    (hset : ∀ {o p o₁ f value}, R o p → o.set f value = .ok o₁ →
      ∃ p₁, p.set f value = .ok p₁ ∧ R o₁ p₁)
    (h : Takes o ws o₁) {p : Options} (hp : R o p) : ∃ p₁, Takes p ws p₁ ∧ R o₁ p₁ := by
  induction h generalizing p with
  | nil => exact ⟨p, .nil, hp⟩
  | cons hgives ho _ ih =>
    obtain ⟨p₁, hp₁, hR⟩ := hset hp ho
    obtain ⟨p₂, hp₂, hR⟩ := ih hR
    exact ⟨p₂, .cons hgives hp₁ hp₂, hR⟩

/-! ## Texts -/

theorem divider_mem {argv : List String} (h : "--" ∈ argv) : Word.divider ∈ Word.ofTexts argv := by
  induction argv with
  | nil => cases h
  | cons s argv ih =>
    unfold Word.ofTexts
    split
    · exact .head _
    · next hs => exact .tail _ (ih ((List.mem_cons.mp h).resolve_left (Ne.symm hs)))

theorem ofTexts_append {before : List String} (h : "--" ∉ before) (after : List String) :
    Word.ofTexts (before ++ after) = Word.ofTexts before ++ Word.ofTexts after := by
  induction before with
  | nil => rfl
  | cons s before ih =>
    rw [List.mem_cons, not_or] at h
    rw [List.cons_append, Word.ofTexts, Word.ofTexts, if_neg (Ne.symm h.1), if_neg (Ne.symm h.1),
      ih h.2]
    rfl

/-- **A command line is accepted exactly if its words fall into groups**, and
it asks for what they give. -/
theorem parse_eq_ok_iff {argv : List String} :
    parse argv = .ok o ↔ Takes .default (Word.ofTexts argv) o := by
  unfold parse
  constructor
  · intro h
    dsimp only at h
    split at h
    · cases h
    · exact (takes_of_ofWords h).2
  · intro h
    have hambiguity : Word.ambiguity? (Word.ofTexts argv) = none := by
      refine List.findSome?_eq_none_iff.mpr fun w hw => ?_
      rcases h.word_cases hw with ⟨f, value, rfl | rfl⟩ | ⟨text, rfl⟩ <;> rfl
    have hread := h.ofWords_append [] []
    rw [List.append_nil] at hread
    dsimp only
    rw [hambiguity]
    exact hread

/-- An accepted command line has no double dash. -/
theorem divider_notMem {argv : List String} (h : parse argv = .ok o) : "--" ∉ argv := by
  intro hmem
  rcases (parse_eq_ok_iff.mp h).word_cases (divider_mem hmem) with ⟨f, value, h | h⟩ | ⟨text, h⟩
  · cases h
  · cases h
  · cases h

/-! ## Insertions -/

/-- A file has any name but that of standard input. -/
theorem set_diffFile_of_ne {name : String} (hname : name ≠ "-") (o : Options) :
    o.set .diffFile (some name) = .ok { o with diffFile := some (.named name) } := by
  unfold set
  split <;> simp_all

/-- **A flag does the same to all options**: it refuses its value, or it sets
one field. -/
theorem set_cases (f : Flag) (value : Option String) :
    (∃ refusal, ∀ o : Options, o.set f value = .error refusal) ∨
      (∀ o : Options, o.set f value = .ok { o with exitCode := true }) ∨
      (∀ o : Options, o.set f value = .ok { o with commit := value }) ∨
      (∃ source, ∀ o : Options, o.set f value = .ok { o with diffFile := some source }) ∨
      ∃ format, ∀ o : Options, o.set f value = .ok { o with format } := by
  cases f with
  | help => exact .inl ⟨_, fun _ => rfl⟩
  | exitCode => exact .inr (.inl fun _ => rfl)
  | commit => exact .inr (.inr (.inl fun _ => rfl))
  | diffFile =>
    refine .inr (.inr (.inr (.inl ?_)))
    cases value with
    | none => exact ⟨_, fun _ => rfl⟩
    | some name =>
      by_cases hname : name = "-"
      · subst hname
        exact ⟨_, fun _ => rfl⟩
      · exact ⟨.named name, set_diffFile_of_ne hname⟩
  | format =>
    cases value with
    | none => exact .inr (.inr (.inr (.inr ⟨_, fun _ => rfl⟩)))
    | some name =>
      by_cases htext : name = "text"
      · subst htext
        exact .inr (.inr (.inr (.inr ⟨_, fun _ => rfl⟩)))
      · by_cases hjson : name = "json"
        · subst hjson
          exact .inr (.inr (.inr (.inr ⟨_, fun _ => rfl⟩)))
        · exact .inl ⟨.usage (.badFormat name), fun o => by unfold set; split <;> simp_all⟩

namespace Takes

/-- A file for the diff that is named before stays, if none is named later. -/
theorem setDiffFile (h : Takes o ws o₁) (hnone : o₁.diffFile = none) (source : DiffFile) :
    Takes { o with diffFile := some source } ws { o₁ with diffFile := some source } := by
  have hset {o p o' : Options} {f : Flag} {value : Option String}
      (hp : o.diffFile = none → p = { o with diffFile := some source })
      (ho : o.set f value = .ok o') :
      ∃ p', p.set f value = .ok p' ∧
        (o'.diffFile = none → p' = { o' with diffFile := some source }) := by
    rcases set_cases f value with ⟨_, h⟩ | h | h | ⟨_, h⟩ | ⟨_, h⟩ <;> rw [h] at ho <;>
      cases ho <;> refine ⟨_, h _, fun hnone => ?_⟩
    case inr.inr.inr.inl => cases hnone
    all_goals rw [hp hnone]
  obtain ⟨p, hp, hR⟩ := h.simulates hset fun _ => rfl
  rwa [hR hnone] at hp

end Takes

section Insertion

variable {before after : List String} (hbefore : parse before = .ok o₁)
include hbefore

/-- **What stands behind an accepted command line** is taken in from there on. -/
theorem parse_append_iff :
    parse (before ++ after) = .ok o ↔ Takes o₁ (Word.ofTexts after) o := by
  rw [parse_eq_ok_iff, ofTexts_append (divider_notMem hbefore)]
  constructor
  · intro h
    have hread := (parse_eq_ok_iff.mp hbefore).ofWords_append [] (Word.ofTexts after)
    have hwhole := h.ofWords_append [] []
    rw [List.append_nil] at hwhole
    exact (takes_of_ofWords (hread.symm.trans hwhole)).2
  · exact (parse_eq_ok_iff.mp hbefore).append

/-- Words that give a flag can stand there. -/
theorem parse_append_of_gives {added : List String} {f : Flag} {value : Option String}
    (hgives : Word.Gives (Word.ofTexts added) f value) (hset : o₁.set f value = .ok o₂) :
    parse (before ++ added) = .ok o₂ := by
  rw [parse_append_iff hbefore, ← List.append_nil (Word.ofTexts added)]
  exact .cons hgives hset .nil

/-- **Naming a file for the diff**, where none is named, changes nothing else
that is asked for. -/
theorem parse_insert_diffFile (h : parse (before ++ after) = .ok o) {name : String}
    {source : DiffFile}
    (hname : Word.ofTexts ["--diff-file", name] = [.long .diffFile none, .stray name])
    (hsource : ∀ o : Options, o.set .diffFile (some name) = .ok { o with diffFile := some source })
    (hnone : o.diffFile = none) :
    parse (before ++ ["--diff-file", name] ++ after)
      = .ok { o with diffFile := some source } := by
  have hadded : parse (before ++ ["--diff-file", name]) = .ok { o₁ with diffFile := some source } :=
    parse_append_of_gives hbefore (hname ▸ .separate (.inl rfl) rfl) (hsource o₁)
  exact (parse_append_iff hadded).mpr (((parse_append_iff hbefore).mp h).setDiffFile hnone source)

end Insertion

end Options

end ChangeReview
