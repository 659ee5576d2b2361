import ChangeReview.Proofs.Review.Staging

/-!
# A change may be split and ordered in any way

The same change can be handed to a review as few patches or many, in any
order, with patches of one file apart or together. What the patches say is
the same each time: which lines were added to which file, and each of them
how often. A review depends on nothing else.

What may be done to patches is a relation, `Patch.Rearranged`, with one rule
for each thing that may be done, and closed under doing several of them one
after the other, or undoing them. What stays the same is the list of all
added lines, each with the path of its file (`Patch.located`), up to its
order; and this is all that stays the same, since patches can be taken apart
into single lines and put together again (`Patch.rearranged_iff`).

From there on the relation plays no part. A placement asks for the greatest
of some lines and for how often it is there, and neither question depends on
an order (`Patch.lastWithin_congr`). Whether there is anything to review at
all depends on whether some line was added to a file that is looked at, and
not on the patch that it is in (`Patch.exists_selected_iff`).
-/

namespace ChangeReview

namespace Patch

/-! ## What patches say -/

/-- The added lines of patches, each with the path of its file. -/
def located (ps : List Patch) : List (Path × Int) :=
  ps.flatMap fun p => p.lines.map (p.path, ·)

@[simp] theorem located_cons (p : Patch) (ps : List Patch) :
    located (p :: ps) = p.lines.map (p.path, ·) ++ located ps := List.flatMap_cons

/-- **What may be done to patches** without changing what they say. Patches
change places, so a rule that is for the first of them is for any. The counts
that come with patches are of no concern here. -/
inductive Rearranged : List Patch → List Patch → Prop
  /-- The patches change places. -/
  | permute {ps qs : List Patch} (h : ps.Perm qs) : Rearranged ps qs
  /-- The lines within a patch change places. -/
  | reorder {p q : Patch} (ps : List Patch) (hpath : q.path = p.path)
      (hlines : q.lines.Perm p.lines) : Rearranged (p :: ps) (q :: ps)
  /-- A patch is split into two of the same path. -/
  | split {p q r : Patch} (ps : List Patch) (hq : q.path = p.path) (hr : r.path = p.path)
      (hlines : q.lines ++ r.lines = p.lines) : Rearranged (p :: ps) (q :: r :: ps)
  /-- A patch without lines is left out. -/
  | drop {p : Patch} (ps : List Patch) (hlines : p.lines = []) : Rearranged (p :: ps) ps
  /-- What was done is undone: patches of one path are put together, and ones
  without lines are put in. -/
  | undo {ps qs : List Patch} (h : Rearranged ps qs) : Rearranged qs ps
  /-- One thing is done after the other. -/
  | trans {ps qs rs : List Patch} (h : Rearranged ps qs) (h' : Rearranged qs rs) :
      Rearranged ps rs

/-- **Rearranged patches add the same lines to the same files.** -/
theorem Rearranged.located_perm {ps qs : List Patch} (h : Rearranged ps qs) :
    (located ps).Perm (located qs) := by
  induction h with
  | permute h => exact h.flatMap_right _
  | reorder ps hpath hlines =>
    rw [located_cons, located_cons, hpath]
    exact (hlines.symm.map _).append_right _
  | split ps hq hr hlines =>
    rw [located_cons, located_cons, located_cons, hq, hr, ← hlines, List.map_append,
      List.append_assoc]
  | drop ps hlines => rw [located_cons, hlines]; rfl
  | undo _ ih => exact ih.symm
  | trans _ _ ih ih' => exact ih.trans ih'

/-- The patch of a single line. -/
def single (x : Path × Int) : Patch := ⟨x.1, [x.2], none⟩

/-- What may be done to some patches may be done in front of others. -/
theorem Rearranged.cons (r : Patch) {ps qs : List Patch} (h : Rearranged ps qs) :
    Rearranged (r :: ps) (r :: qs) := by
  -- the rules are for the first patch, so the one in front changes places
  have swap (p : Patch) (ps : List Patch) : Rearranged (r :: p :: ps) (p :: r :: ps) :=
    .permute (.swap p r ps)
  induction h with
  | permute h => exact .permute (h.cons r)
  | @reorder p q ps hpath hlines =>
    exact (swap p ps).trans ((Rearranged.reorder _ hpath hlines).trans (swap q ps).undo)
  | @split p q s ps hq hs hlines =>
    have behind : Rearranged (q :: s :: r :: ps) (r :: q :: s :: ps) :=
      .permute (show List.Perm ([q, s] ++ r :: ps) _ from List.perm_middle)
    exact (swap p ps).trans ((Rearranged.split _ hq hs hlines).trans behind)
  | @drop p ps hlines => exact (swap p ps).trans (.drop _ hlines)
  | undo _ ih => exact ih.undo
  | trans _ _ ih ih' => exact ih.trans ih'

/-- So may it be done behind any number of others. -/
theorem Rearranged.append_left (rs : List Patch) {ps qs : List Patch} (h : Rearranged ps qs) :
    Rearranged (rs ++ ps) (rs ++ qs) := by
  induction rs with
  | nil => exact h
  | cons r rs ih => exact ih.cons r

/-- A patch in front of others is taken apart into its lines. -/
theorem rearranged_singles_append (p : Patch) (ps : List Patch) :
    Rearranged (p :: ps) ((p.lines.map (p.path, ·)).map single ++ ps) := by
  obtain ⟨path, lines, declared⟩ := p
  show Rearranged _ ((lines.map (path, ·)).map single ++ ps)
  induction lines generalizing declared with
  | nil => exact .drop ps rfl
  | cons n lines ih =>
    have first : Rearranged (⟨path, n :: lines, declared⟩ :: ps)
        (single (path, n) :: ⟨path, lines, none⟩ :: ps) := .split ps rfl rfl rfl
    exact first.trans ((ih none).cons _)

/-- Patches are taken apart into their lines. -/
theorem rearranged_singles (ps : List Patch) : Rearranged ps ((located ps).map single) := by
  induction ps with
  | nil => exact .permute (.refl _)
  | cons p ps ih =>
    rw [located_cons, List.map_append]
    exact (rearranged_singles_append p ps).trans (ih.append_left _)

/-- **Patches are rearrangements of each other exactly if they add the same
lines to the same files.** -/
theorem rearranged_iff {ps qs : List Patch} :
    Rearranged ps qs ↔ (located ps).Perm (located qs) :=
  ⟨Rearranged.located_perm, fun h =>
    (rearranged_singles ps).trans ((Rearranged.permute (h.map single)).trans
      (rearranged_singles qs).undo)⟩

/-! ## What a review asks of patches -/

/-- The lines of a file within a range, found among all added lines. -/
theorem linesWithin_eq (ps : List Patch) (file : Path) (first last : Int) :
    linesWithin ps file first last
      = ((located ps).filter fun x => x.1 = file && (first ≤ x.2 && x.2 ≤ last)).map Prod.snd := by
  unfold linesWithin
  induction ps with
  | nil => rfl
  | cons p ps ih =>
    rw [located_cons, List.filter_append, List.map_append, ← ih]
    by_cases hfile : p.path = file
    · simp [hfile, List.filter_map, Function.comp_def]
    · simp [hfile, List.filter_map, Function.comp_def]

/-- The greatest of some numbers does not depend on their order. -/
theorem max?_eq_of_perm {ns ms : List Int} (h : ns.Perm ms) : ns.max? = ms.max? := by
  ext n
  rw [List.max?_eq_some_iff, List.max?_eq_some_iff]
  simp only [h.mem_iff]

/-- **A placement does not depend on how patches are split or ordered**, and
neither does the count that it is refused with. -/
theorem lastWithin_congr {ps qs : List Patch} (h : (located ps).Perm (located qs))
    (file : Path) (first last : Int) :
    lastWithin ps file first last = lastWithin qs file first last := by
  have hlines : (linesWithin ps file first last).Perm (linesWithin qs file first last) := by
    rw [linesWithin_eq, linesWithin_eq]
    exact (h.filter _).map _
  unfold lastWithin
  dsimp only
  rw [max?_eq_of_perm hlines]
  simp only [hlines.count_eq]

variable {cwd : Path} {excludes : List String}

/-- **Whether there is anything to review** depends on the added lines alone. -/
theorem exists_selected_iff {ps : List Patch} (truthful : ∀ p ∈ ps, p.IsTruthful) :
    (∃ p ∈ ps, 0 < p.additions ∧ p.path.isEligible cwd excludes = true)
      ↔ ∃ x ∈ located ps, x.1.isEligible cwd excludes = true := by
  constructor
  · rintro ⟨p, hp, hadd, helig⟩
    obtain ⟨n, hn⟩ := List.exists_mem_of_ne_nil _ ((truthful p hp).mp hadd)
    exact ⟨(p.path, n), List.mem_flatMap.mpr ⟨p, hp, List.mem_map_of_mem hn⟩, helig⟩
  · rintro ⟨x, hx, helig⟩
    obtain ⟨p, hp, hx⟩ := List.mem_flatMap.mp hx
    obtain ⟨n, hn, rfl⟩ := List.mem_map.mp hx
    exact ⟨p, hp, (truthful p hp).mpr (List.ne_nil_of_mem hn), helig⟩

end Patch

/-! ## The outcome of a review -/

namespace Diagnostic

variable {ps qs : List Patch} (h : (Patch.located ps).Perm (Patch.located qs))
include h

theorem stated?_congr (runner : String) : stated? ps runner = stated? qs runner := by
  funext d
  unfold stated? place
  simp only [Patch.lastWithin_congr h]

/-- The messages of diagnostics do not depend on how patches are split or
ordered. -/
theorem unstaged_congr (cwd : Path) (excludes : List String) (runner : String)
    (ds : List Diagnostic) :
    unstaged ps cwd excludes runner ds = unstaged qs cwd excludes runner ds := by
  unfold unstaged
  rw [stated?_congr h]

end Diagnostic

/-- **The outcome of a review does not depend on how a change is split or
ordered.** Take two sessions that differ in their patches, and let these be
rearrangements of each other that count their own lines. Whatever the checker
does, a first run in either comes to the same: the same messages in the same
order or the same failure with all it says, the same entries of the log and
the same commands. -/
theorem Session.run_rearranged {ps qs : List Patch} (h : Patch.Rearranged ps qs)
    (hps : ∀ p ∈ ps, p.additions = p.lines.length) (hqs : ∀ q ∈ qs, q.additions = q.lines.length)
    (excludes : List String) (cwd : Path) (runner : String) (room : Nat) (checker : Child) :
    ∃ o, ((⟨ps, excludes, cwd, runner, room, none⟩ : Session).step (.run checker)).2 = .ran o ∧
      ((⟨qs, excludes, cwd, runner, room, none⟩ : Session).step (.run checker)).2 = .ran o := by
  have truthful {rs : List Patch} (hrs : ∀ r ∈ rs, r.additions = r.lines.length) :
      ∀ r ∈ rs, r.IsTruthful := fun r hr => by
    rw [Patch.IsTruthful, hrs r hr, ← List.length_pos_iff]
    exact Int.natCast_pos
  have hsay := h.located_perm
  have hnone : ps.filter (·.isSelected cwd excludes) = []
      ↔ qs.filter (·.isSelected cwd excludes) = [] := by
    rw [Patch.filter_isSelected_eq_nil, Patch.filter_isSelected_eq_nil,
      Patch.exists_selected_iff (truthful hps), Patch.exists_selected_iff (truthful hqs)]
    simp only [hsay.mem_iff]
  have hmessages (ds : List Diagnostic) :
      Diagnostic.messages (ps.filter (·.isSelected cwd excludes)) runner ds
        = Diagnostic.messages (qs.filter (·.isSelected cwd excludes)) runner ds := by
    rw [Diagnostic.messages_selected (truthful hps), Diagnostic.messages_selected (truthful hqs),
      Diagnostic.unstaged_congr hsay]
  refine ⟨_, run_of_unchosen rfl checker, (run_of_unchosen rfl checker).trans ?_⟩
  exact congrArg Answer.ran (review_congr hnone hmessages room checker).symm

/-- Two patches, the first of which lists a line twice. -/
def Patch.together : List Patch :=
  [⟨.ofString "a.py", [2, 1, 2], none⟩, ⟨.ofString "t.py", [2], none⟩]

/-- The same lines as in `Patch.together`, the doubled one in patches apart. -/
def Patch.apart : List Patch :=
  [⟨.ofString "a.py", [2], some 1⟩, ⟨.ofString "b.py", [], none⟩, ⟨.ofString "t.py", [2], none⟩,
    ⟨.ofString "a.py", [2, 1], none⟩]

/-- The doubled line is refused both times, and counted across the patches. -/
theorem Session.run_apart :
    Patch.Rearranged Patch.together Patch.apart ∧
      ∃ o, ((⟨Patch.together, [], .ofString "/r", "p", 9, none⟩ : Session).step
          (.run (.exited Session.twoFilesReport "" 0))).2 = .ran o ∧
        ((⟨Patch.apart, [], .ofString "/r", "p", 9, none⟩ : Session).step
          (.run (.exited Session.twoFilesReport "" 0))).2 = .ran o ∧
        o.result = .error (.placement ⟨2, .ofString "a.py", 2⟩) := by
  have hrearranged : Patch.Rearranged Patch.together Patch.apart :=
    Patch.rearranged_iff.mpr (by decide +kernel)
  obtain ⟨o, htogether, hapart⟩ := Session.run_rearranged hrearranged (by decide) (by decide) []
    (.ofString "/r") "p" 9 (.exited Session.twoFilesReport "" 0)
  refine ⟨hrearranged, o, htogether, hapart, ?_⟩
  obtain rfl := Answer.ran.inj htogether
  decide +kernel

end ChangeReview
