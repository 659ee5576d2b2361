import ChangeReview.Proofs.Review.Exclusion

/-!
# Patterns and the place of the checkout

The patterns of a repository are tried on the path of a file inside the
repository, which is the same in every checkout, and on the whole path, which
is not. The former is the one that is meant. The latter gets in the way as
soon as a directory above the repository has a name that a pattern asks for:
`*/migrations/*` excludes every file of a repository that is checked out in a
directory `migrations`, and none of the same files elsewhere. So two checkouts
agree on a file that is excluded from inside, and on any other one only if the
whole paths happen to fare alike (`Path.isExcluded_checkout`).

Patterns that cannot see the place of the checkout are told by where they take
a slash (`Glob.IsPortable`). A pattern that takes none at its start does not
match a whole path at all. A star at the start takes whatever is above the
repository, and then the rest of the pattern settles the matter, provided that
it fits between the slash in front of the inner path and the end. It does if
each token takes one character, and none but the first of them a slash.
-/

namespace ChangeReview

namespace Glob

/-! ## Patterns that see no directory above -/

/-- Tokens of which, stars at the start apart, only the first takes a slash. -/
def IsSlashFirst : List Token → Prop
  | [] => True
  | .anyRun :: ts => IsSlashFirst ts
  | _ :: ts => ∀ t ∈ ts, t.accepts '/' = false

/-- **Tokens that do not see what is above a repository.** The first one takes
no slash; or it is a star, and what is behind takes a slash only first. -/
def IsPortable : List Token → Prop
  | [] => True
  | .anyRun :: ts => IsSlashFirst ts
  | t :: _ => t.accepts '/' = false

instance decidableIsSlashFirst : (ts : List Token) → Decidable (IsSlashFirst ts)
  | [] => .isTrue trivial
  | .anyRun :: ts => decidableIsSlashFirst ts
  | .anyOne :: ts | .oneOf .. :: ts | .literal _ :: ts =>
    inferInstanceAs (Decidable (∀ t ∈ ts, t.accepts '/' = false))

instance decidableIsPortable : (ts : List Token) → Decidable (IsPortable ts)
  | [] => .isTrue trivial
  | .anyRun :: ts => inferInstanceAs (Decidable (IsSlashFirst ts))
  | .anyOne :: _ | .oneOf .. :: _ | .literal _ :: _ => inferInstanceAs (Decidable (_ = false))

theorem ne_anyRun_of_accepts {t : Token} {c : Char} (h : t.accepts c = false) : t ≠ .anyRun := by
  rintro rfl
  exact Bool.false_ne_true h.symm

/-- What no token accepts is not in what they spell. -/
theorem notMem_of_spells {c : Char} {ts : List Token} (h : ∀ t ∈ ts, t.accepts c = false)
    {name : List Char} (hname : Spells ts name) : c ∉ name := by
  induction ts generalizing name with
  | nil =>
    rw [spells_nil.mp hname]
    exact List.not_mem_nil
  | cons t ts ih =>
    have ht := h t (.head _)
    obtain ⟨d, rest, rfl, hd, hrest⟩ := (spells_cons_of_ne (ne_anyRun_of_accepts ht)).mp hname
    have hcd : c ≠ d := by
      rintro rfl
      exact Bool.false_ne_true (ht.symm.trans hd)
    exact List.not_mem_cons_of_ne_of_not_mem hcd (ih (fun t ht => h t (.tail _ ht)) hrest)

/-- Two stars in a row are as good as one. -/
theorem spells_anyRun_anyRun {ts : List Token} {name : List Char} :
    Spells (.anyRun :: .anyRun :: ts) name ↔ Spells (.anyRun :: ts) name := by
  constructor
  · intro h
    obtain ⟨w, hw, h⟩ := spells_anyRun.mp h
    obtain ⟨v, hv, h⟩ := spells_anyRun.mp h
    exact spells_anyRun.mpr ⟨v, hv.trans hw, h⟩
  · exact fun h => spells_anyRun.mpr ⟨name, List.suffix_refl name, h⟩

/-- An end that has a slash at most as its first character reaches back no
further than to any slash of the text. -/
theorem suffix_iff_of_notMem_tail {w front s : List Char} (hw : '/' ∉ w.tail) :
    w <:+ front ++ '/' :: s ↔ w <:+ '/' :: s := by
  have hend : '/' :: s <:+ front ++ '/' :: s := List.suffix_append _ _
  refine ⟨fun h => ?_, fun h => h.trans hend⟩
  rcases List.suffix_or_suffix_of_suffix h hend with hshort | ⟨before, rfl⟩
  · exact hshort
  · cases before with
    | nil => exact List.suffix_refl _
    | cons c before => exact absurd (List.mem_append_right before (.head s)) hw

/-- What has a slash at most as its first character is found behind a star in
the end of a path, or not at all. -/
theorem spells_anyRun_iff {ts : List Token} (h : ∀ w, Spells ts w → '/' ∉ w.tail)
    (front s : List Char) :
    Spells (.anyRun :: ts) (front ++ '/' :: s) ↔ Spells (.anyRun :: ts) ('/' :: s) := by
  rw [spells_anyRun, spells_anyRun]
  exact exists_congr fun w => and_congr_left fun hw => suffix_iff_of_notMem_tail (h w hw)

/-- So are tokens of which only the first takes a slash. -/
theorem IsSlashFirst.spells_iff {ts : List Token} (h : IsSlashFirst ts) (front s : List Char) :
    Spells (.anyRun :: ts) (front ++ '/' :: s) ↔ Spells (.anyRun :: ts) ('/' :: s) := by
  fun_induction IsSlashFirst ts with
  | case1 =>
    refine spells_anyRun_iff (fun w hw => ?_) front s
    rw [spells_nil.mp hw]
    exact List.not_mem_nil
  | case2 ts ih => rw [spells_anyRun_anyRun, spells_anyRun_anyRun, ih h]
  | case3 t ts ht =>
    refine spells_anyRun_iff (fun w hw => ?_) front s
    obtain ⟨c, rest, rfl, -, hrest⟩ := (spells_cons_of_ne ht).mp hw
    exact notMem_of_spells h hrest

/-- **Portable tokens see only the end** of a path that starts with a slash. -/
theorem IsPortable.spells_iff {ts : List Token} (h : IsPortable ts) {front s : List Char}
    (hfront : (front ++ '/' :: s).head? = some '/') :
    Spells ts (front ++ '/' :: s) ↔ Spells ts ('/' :: s) := by
  unfold IsPortable at h
  split at h
  · simp
  · exact h.spells_iff front s
  · next t ts _ =>
    -- neither text is spelled, as both start with a slash
    have hnot {name : List Char} (hname : name.head? = some '/') : ¬ Spells (t :: ts) name := by
      intro hspells
      obtain ⟨c, rest, rfl, hc, -⟩ := (spells_cons_of_ne (ne_anyRun_of_accepts h)).mp hspells
      obtain rfl := Option.some.inj hname
      exact Bool.false_ne_true (h.symm.trans hc)
    exact iff_of_false (hnot hfront) (hnot rfl)

end Glob

namespace Path

variable {base base' x : Path}

/-- A portable pattern matches the whole paths of a file in all directories or
in none. -/
theorem isMatch_text_join {pattern : String} (h : Glob.IsPortable (Glob.tokens pattern.toList))
    (hbase : base.isAbsolute) (hx : x.IsInner) :
    Glob.isMatch pattern (base / x).text = Glob.isMatch pattern ("/" ++ x.text) := by
  have hhead := head?_text (isAbsolute_join hbase hx.relative)
  obtain ⟨front, hfront⟩ := text_join hbase hx
  have htext : (base / x).text.toList = front.toList ++ '/' :: x.text.toList := by
    rw [hfront, String.toList_append, String.toList_append, List.append_assoc]
    rfl
  rw [Bool.eq_iff_iff, Glob.isMatch_iff, Glob.isMatch_iff, htext, h.spells_iff (htext ▸ hhead),
    String.toList_append]
  rfl

/-- **What two checkouts agree on.** A file of a directory is excluded there if
a pattern matches its path inside the directory or its whole path. So of two
directories, either both or neither exclude it if a pattern matches the path
inside, or if the patterns match both whole paths or neither. Portable
patterns exclude the same files of all directories. -/
theorem isExcluded_checkout (hbase : base.isAbsolute) (hbase' : base'.isAbsolute)
    (hx : x.IsInner) (excludes : List String) :
    (base / x).isExcluded base excludes
        = (excludes.any (Glob.isMatch · x.text) || excludes.any (Glob.isMatch · (base / x).text)) ∧
      ((base / x).isExcluded base excludes = (base' / x).isExcluded base' excludes
        ↔ excludes.any (Glob.isMatch · x.text) = true ∨
          excludes.any (Glob.isMatch · (base / x).text)
            = excludes.any (Glob.isMatch · (base' / x).text)) ∧
      ((∀ pattern ∈ excludes, Glob.IsPortable (Glob.tokens pattern.toList)) →
        (base / x).isExcluded base excludes = (base' / x).isExcluded base' excludes) := by
  have hjoin := isExcluded_join_eq_or hbase hx.relative excludes
  have hjoin' := isExcluded_join_eq_or hbase' hx.relative excludes
  refine ⟨hjoin, ?_, fun hportable => ?_⟩
  · rw [hjoin, hjoin']
    cases excludes.any (Glob.isMatch · x.text) <;> simp
  · have hwhole : excludes.any (Glob.isMatch · (base / x).text)
        = excludes.any (Glob.isMatch · (base' / x).text) := by
      rw [Bool.eq_iff_iff, List.any_eq_true, List.any_eq_true]
      refine exists_congr fun pattern => and_congr_right fun hpattern => ?_
      rw [isMatch_text_join (hportable pattern hpattern) hbase hx,
        isMatch_text_join (hportable pattern hpattern) hbase' hx]
    rw [hjoin, hjoin', hwhole]

/-- A file is excluded wherever it lies, also in a directory whose name a pattern
asks for. -/
theorem isExcluded_conftest :
    let excludes := ["*/conftest.py", "gen/*"]
    let x := ofString "tests/conftest.py"
    (∀ pattern ∈ excludes, Glob.IsPortable (Glob.tokens pattern.toList)) ∧
      (ofString "/gen" / x).isExcluded (ofString "/gen") excludes = true ∧
      (ofString "/repo" / x).isExcluded (ofString "/repo") excludes = true := by
  intro excludes x
  have hportable : ∀ pattern ∈ excludes, Glob.IsPortable (Glob.tokens pattern.toList) := by
    decide +kernel
  have hgen : (ofString "/gen").isAbsolute := rfl
  have hrepo : (ofString "/repo").isAbsolute := rfl
  have hx : x.IsInner := ⟨rfl, by decide⟩
  have hexcluded : (ofString "/gen" / x).isExcluded (ofString "/gen") excludes = true := by
    decide +kernel
  have hcheckout := isExcluded_checkout hgen hrepo hx excludes
  exact ⟨hportable, hexcluded, (hcheckout.2.2 hportable).symm.trans hexcluded⟩

/-- **A pattern that sees the place of the checkout.** The same file is excluded
in a directory whose name the pattern asks for, and not in another. -/
theorem isExcluded_inMigrations :
    let excludes := ["*/migrations/*"]
    let x := ofString "a.py"
    x.IsInner ∧ (ofString "/srv/migrations").isAbsolute ∧ (ofString "/repo").isAbsolute ∧
      (ofString "/srv/migrations" / x).isExcluded (ofString "/srv/migrations") excludes = true ∧
      (ofString "/repo" / x).isExcluded (ofString "/repo") excludes = false := by
  refine ⟨⟨rfl, by decide⟩, rfl, rfl, ?_, ?_⟩
  · decide +kernel
  · decide +kernel

end Path

end ChangeReview
