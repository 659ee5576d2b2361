import Mathlib.Data.List.NodupEquivFin
import ChangeReview.Proofs.Json.Writing
import ChangeReview.Proofs.Review.Rearrangement

/-!
# Where a diagnostic is placed

A diagnostic has its candidates: the added lines of its file that its range
covers, counted from one. A placement comes to one of three things. There is
no candidate, and the diagnostic is dropped; one candidate stands below all
others, and is the place; or the last line among the candidates is listed more
than once, and the placement is refused with that line and the number of times
it is listed.

All three are read off one equation (`Diagnostic.place_eq`), in which only the
greatest candidate appears and how often it is there. That is also why nothing
else matters: not what is listed twice above that line, not the lines of other
files, and not the lines out of range (`Diagnostic.place_congr`).
-/

namespace ChangeReview

/-! ## The greatest of some numbers -/

section Greatest

variable {ns ms : List Int} {n : Int}

/-- A number that is there twice is there in two places. -/
theorem two_le_count_iff :
    2 ≤ ns.count n ↔ ∃ i j : Nat, i < j ∧ ns[i]? = some n ∧ ns[j]? = some n := by
  rw [← List.duplicate_iff_two_le_count, List.duplicate_iff_exists_distinct_get]
  constructor
  · rintro ⟨i, j, hij, hi, hj⟩
    exact ⟨i, j, hij, by simp [hi], by simp [hj]⟩
  · rintro ⟨i, j, hij, hi, hj⟩
    obtain ⟨hi', hi⟩ := List.getElem?_eq_some_iff.mp hi
    obtain ⟨hj', hj⟩ := List.getElem?_eq_some_iff.mp hj
    exact ⟨⟨i, hi'⟩, ⟨j, hj'⟩, hij, hi.symm, hj.symm⟩

/-- **A number above all entries in other places** is the greatest, and there
once; and the other way round. -/
theorem exists_place_iff :
    (∃ i : Nat, ns[i]? = some n ∧ ∀ j m, j ≠ i → ns[j]? = some m → m < n)
      ↔ ns.max? = some n ∧ ns.count n ≤ 1 := by
  rw [List.max?_eq_some_iff]
  constructor
  · rintro ⟨i, hi, habove⟩
    refine ⟨⟨List.mem_of_getElem? hi, fun m hm => ?_⟩, ?_⟩
    · obtain ⟨j, hj⟩ := List.mem_iff_getElem?.mp hm
      by_cases hji : j = i
      · subst hji
        exact le_of_eq (Option.some.inj (hj.symm.trans hi))
      · exact le_of_lt (habove j m hji hj)
    · by_contra htwice
      obtain ⟨j, k, hjk, hj, hk⟩ := two_le_count_iff.mp (not_le.mp htwice)
      -- one of the two places is another one
      by_cases hji : j = i
      · exact lt_irrefl n (habove k n (by omega) hk)
      · exact lt_irrefl n (habove j n hji hj)
  · rintro ⟨⟨hn, hgreatest⟩, honce⟩
    obtain ⟨i, hi⟩ := List.mem_iff_getElem?.mp hn
    refine ⟨i, hi, fun j m hji hj => lt_of_le_of_ne (hgreatest m (List.mem_of_getElem? hj)) ?_⟩
    rintro rfl
    have htwice : 2 ≤ ns.count m := by
      rcases lt_or_gt_of_ne hji with hlt | hgt
      · exact two_le_count_iff.mpr ⟨j, i, hlt, hj, hi⟩
      · exact two_le_count_iff.mpr ⟨i, j, hgt, hi, hj⟩
    omega

/-- The greatest of some numbers depends only on how often those are there that
none of them is above. -/
theorem max?_eq_of_count_eq (h : ∀ n, (∀ m ∈ ns, m ≤ n) → ms.count n = ns.count n) :
    ms.max? = ns.max? := by
  cases hmax : ns.max? with
  | none =>
    obtain rfl := List.max?_eq_none_iff.mp hmax
    refine List.max?_eq_none_iff.mpr (List.eq_nil_iff_forall_not_mem.mpr fun n hn => ?_)
    exact absurd (h n nofun) (List.count_pos_iff.mpr hn).ne'
  | some n =>
    obtain ⟨hn, hgreatest⟩ := List.max?_eq_some_iff.mp hmax
    refine List.max?_eq_some_iff.mpr ⟨?_, fun m hm => ?_⟩
    · rw [← List.count_pos_iff, h n hgreatest]
      exact List.count_pos_iff.mpr hn
    · by_contra hlt
      have habove (k : Int) (hk : k ∈ ns) : k ≤ m := (hgreatest k hk).trans (not_le.mp hlt).le
      rw [← List.count_pos_iff, h m habove, List.count_pos_iff] at hm
      exact hlt (hgreatest m hm)

end Greatest

/-! ## Candidates -/

namespace Diagnostic

/-- Whether a line is in the range of a diagnostic. Ranges are counted from
zero and lines from one. -/
def covers (d : Diagnostic) (n : Int) : Bool :=
  d.startLine.any fun first => d.endLine.any fun last => first + 1 ≤ n && n ≤ last + 1

/-- The added lines a diagnostic may be placed on: those of its file that are
in its range. -/
def candidates (patches : List Patch) (d : Diagnostic) : List Int :=
  ((Patch.located patches).filter fun x => d.file = some (.path x.1) && d.covers x.2).map Prod.snd

variable {patches others : List Patch} {d : Diagnostic}

theorem path?_eq_some_iff {file : Path} : d.path? = some file ↔ d.file = some (.path file) := by
  unfold path?
  cases d.file with
  | none => exact iff_of_false nofun nofun
  | some name =>
    cases name with
    | path p =>
      constructor
      · rintro ⟨⟩
        rfl
      · rintro ⟨⟩
        rfl
    | unpaired s => exact iff_of_false nofun nofun

/-- A diagnostic without a file or a range has no candidates. -/
theorem candidates_of_none (h : d.path? = none ∨ d.startLine = none ∨ d.endLine = none) :
    d.candidates patches = [] := by
  unfold candidates covers
  simp only [← path?_eq_some_iff]
  rcases h with h | h | h <;> simp [h]

/-- The candidates are the lines that a placement looks through. -/
theorem candidates_of_some {file : Path} {first last : Int} (hfile : d.path? = some file)
    (hfirst : d.startLine = some first) (hlast : d.endLine = some last) :
    d.candidates patches = Patch.linesWithin patches file (first + 1) (last + 1) := by
  rw [Patch.linesWithin_eq]
  unfold candidates covers
  simp only [← path?_eq_some_iff, hfile, hfirst, hlast, Option.any_some, Option.some.injEq, eq_comm]

/-- **What a placement comes to**, by the greatest candidate and how often it
is listed. -/
theorem place_eq (patches : List Patch) (d : Diagnostic) :
    d.place patches =
      match d.path?, (d.candidates patches).max? with
      | some file, some n =>
        if 1 < (d.candidates patches).count n then
          .error ⟨n, file, (d.candidates patches).count n⟩
        else .ok (some (file, n))
      | _, _ => .ok none := by
  have hnone (h : d.path? = none ∨ d.startLine = none ∨ d.endLine = none) :
      (d.candidates patches).max? = none := by
    rw [candidates_of_none h]
    rfl
  unfold place
  cases hfile : d.path? with
  | none => rfl
  | some file =>
    cases hfirst : d.startLine with
    | none => rw [hnone (.inr (.inl hfirst))]
    | some first =>
      cases hlast : d.endLine with
      | none => rw [hnone (.inr (.inr hlast))]
      | some last =>
        rw [candidates_of_some hfile hfirst hlast]
        dsimp only
        unfold Patch.lastWithin
        dsimp only
        cases (Patch.linesWithin patches file (first + 1) (last + 1)).max? with
        | none => rfl
        | some n =>
          dsimp only
          split <;> rfl

theorem place_eq_none_iff : d.place patches = .ok none ↔ d.candidates patches = [] := by
  rw [place_eq, ← List.max?_eq_none_iff]
  cases hfile : d.path? with
  | none =>
    rw [candidates_of_none (.inl hfile)]
    exact iff_of_true rfl rfl
  | some file =>
    cases (d.candidates patches).max? with
    | none => exact iff_of_true rfl rfl
    | some n =>
      dsimp only
      split <;> exact iff_of_false nofun nofun

theorem place_eq_some_iff {file : Path} {n : Int} :
    d.place patches = .ok (some (file, n)) ↔ d.path? = some file ∧
      (d.candidates patches).max? = some n ∧ (d.candidates patches).count n ≤ 1 := by
  rw [place_eq]
  cases d.path? with
  | none => exact iff_of_false nofun nofun
  | some path =>
    cases (d.candidates patches).max? with
    | none => exact iff_of_false nofun nofun
    | some m =>
      dsimp only
      split
      · next hmany =>
        refine iff_of_false nofun ?_
        rintro ⟨-, ⟨⟩, honce⟩
        omega
      · next honce =>
        constructor
        · rintro ⟨⟩
          exact ⟨rfl, rfl, not_lt.mp honce⟩
        · rintro ⟨⟨⟩, ⟨⟩, -⟩
          rfl

theorem place_eq_error_iff {e : DuplicateLine} :
    d.place patches = .error e ↔ d.path? = some e.path ∧
      (d.candidates patches).max? = some e.line ∧
      (d.candidates patches).count e.line = e.times ∧ 2 ≤ e.times := by
  rw [place_eq]
  cases d.path? with
  | none => exact iff_of_false nofun nofun
  | some path =>
    cases (d.candidates patches).max? with
    | none => exact iff_of_false nofun nofun
    | some m =>
      dsimp only
      split
      · next hmany =>
        constructor
        · rintro ⟨⟩
          exact ⟨rfl, rfl, rfl, hmany⟩
        · rintro ⟨⟨⟩, ⟨⟩, hcount, -⟩
          rw [hcount]
      · next honce =>
        refine iff_of_false nofun ?_
        rintro ⟨-, hline, hcount, htwice⟩
        obtain rfl := Option.some.inj hline
        omega

/-- How often a line is a candidate: as often as it is listed for the file, if
it is in the range. -/
theorem count_candidates {file : Path} (hfile : d.path? = some file) (n : Int) :
    (d.candidates patches).count n
      = if d.covers n then (Patch.located patches).count (file, n) else 0 := by
  unfold candidates
  simp only [← path?_eq_some_iff]
  rw [List.count_eq_countP, List.countP_map, List.countP_filter, hfile]
  split
  · next hcovers =>
    refine List.countP_congr fun x _ => ?_
    obtain ⟨path, m⟩ := x
    simp only [Function.comp_apply, Bool.and_eq_true, beq_iff_eq, decide_eq_true_eq,
      Option.some.injEq, Prod.mk.injEq]
    constructor
    · rintro ⟨rfl, rfl, -⟩
      exact ⟨rfl, rfl⟩
    · rintro ⟨rfl, rfl⟩
      exact ⟨rfl, rfl, hcovers⟩
  · next hcovers =>
    refine List.countP_eq_zero.mpr fun x _ hx => hcovers ?_
    simp only [Function.comp_apply, Bool.and_eq_true, beq_iff_eq] at hx
    exact hx.1 ▸ hx.2.2

/-- **Only the last candidates matter.** Patches that list the lines of the
range equally often, from the last candidate on, give the same placement. -/
theorem place_congr (h : ∀ file ∈ d.path?, ∀ n, d.covers n →
      (∀ m ∈ d.candidates patches, m ≤ n) →
        (Patch.located others).count (file, n) = (Patch.located patches).count (file, n)) :
    d.place others = d.place patches := by
  rw [place_eq, place_eq]
  cases hfile : d.path? with
  | none => rfl
  | some file =>
    have hcount (n : Int) (hn : ∀ m ∈ d.candidates patches, m ≤ n) :
        (d.candidates others).count n = (d.candidates patches).count n := by
      rw [count_candidates hfile, count_candidates hfile]
      split
      · next hcovers => exact h file hfile n hcovers hn
      · rfl
    rw [max?_eq_of_count_eq hcount]
    cases hmax : (d.candidates patches).max? with
    | none => rfl
    | some n =>
      dsimp only
      rw [hcount n (List.max?_eq_some_iff.mp hmax).2]

/-- **A diagnostic is dropped, placed or refused.** It is dropped exactly if it
has no file or no range, or no candidates. It is placed on a line of its file
exactly if this is a candidate and the candidates in all other places are
smaller. It is refused exactly if the greatest candidate is there twice or
more, with that line, the path of its file and the count, which its wording
shows unless the number of the line is too long to be written. Nothing else
about the patches matters than how often the lines of its file and range are
listed, from the greatest candidate on. -/
theorem place_iff (patches : List Patch) (d : Diagnostic) :
    (d.place patches = .ok none ↔
      d.file = none ∨ d.startLine = none ∨ d.endLine = none ∨ d.candidates patches = []) ∧
    (∀ file n, d.place patches = .ok (some (file, n)) ↔
      d.file = some (.path file) ∧ ∃ i : Nat, (d.candidates patches)[i]? = some n ∧
        ∀ j m, j ≠ i → (d.candidates patches)[j]? = some m → m < n) ∧
    (∀ e, d.place patches = .error e ↔
      d.file = some (.path e.path) ∧ e.line ∈ d.candidates patches ∧
        (∀ m ∈ d.candidates patches, m ≤ e.line) ∧
        (d.candidates patches).count e.line = e.times ∧ 2 ≤ e.times) ∧
    (∀ e : DuplicateLine, e.message =
      if Text.isLong e.line then Text.limitMessage none
      else "Added line " ++ toString e.line ++ " of " ++ e.path.text ++ " appears " ++
        toString e.times ++ " times in the diff") ∧
    ∀ others, (∀ file, d.file = some (.path file) → ∀ n, d.covers n →
        (∀ m ∈ d.candidates patches, m ≤ n) →
        (Patch.located others).count (file, n) = (Patch.located patches).count (file, n)) →
      d.place others = d.place patches := by
  simp only [← path?_eq_some_iff]
  refine ⟨?_, fun file n => ?_, fun e => ?_, fun e => ?_, fun others => place_congr⟩
  · rw [place_eq_none_iff]
    refine ⟨fun h => .inr (.inr (.inr h)), fun h => ?_⟩
    rcases h with h | h | h | h
    · exact candidates_of_none (.inl (by rw [path?, h]; rfl))
    · exact candidates_of_none (.inr (.inl h))
    · exact candidates_of_none (.inr (.inr h))
    · exact h
  · rw [place_eq_some_iff, exists_place_iff]
  · rw [place_eq_error_iff, List.max?_eq_some_iff, and_assoc]
  · unfold DuplicateLine.message Text.decimal?
    rw [← Text.ofList_decimal]
    cases Text.isLong e.line <;> rfl

/-- **A refusal does not show its line where the number is too long**, nor the
path, nor the count. -/
theorem place_longLine :
    let file := Path.ofString "a.py"
    let line : Int := Text.leastLong
    let d : Diagnostic := ⟨some (.path file), none, some (line - 1), some (line - 1), none⟩
    let e : DuplicateLine := ⟨line, file, 2⟩
    d.place [⟨file, [line], none⟩, ⟨file, [line], none⟩] = .error e ∧
      e.message = "Exceeds the limit (4300 digits) for integer string conversion; " ++
        "use sys.set_int_max_str_digits() to increase the limit" := by
  have hlong := Text.isLong_leastLong
  dsimp only
  generalize (Text.leastLong : Int) = line at hlong ⊢
  constructor
  · have hlines : Patch.linesWithin
        [⟨.ofString "a.py", [line], none⟩, ⟨.ofString "a.py", [line], none⟩]
        (.ofString "a.py") (line - 1 + 1) (line - 1 + 1) = [line, line] := by
      simp [Patch.linesWithin]
    show (Patch.lastWithin _ _ _ _).map _ = _
    rw [Patch.lastWithin, hlines]
    simp [Except.map]
  · unfold DuplicateLine.message Text.decimal?
    rw [if_pos hlong]
    show Text.limitMessage none = _
    decide +kernel

end Diagnostic

end ChangeReview
