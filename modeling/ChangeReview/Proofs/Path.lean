import Mathlib.Algebra.GroupWithZero.Nat
import Mathlib.Data.List.TakeDrop
import Mathlib.Tactic.ByContra
import ChangeReview.Path

/-!
# Paths and their texts

What the path of a text has to do with the text. The names of a path are the
pieces between the slashes, and where all pieces are names nothing is lost:
names put together with slashes are taken apart again
(`Path.pieces_names`), and a path is found again in its text
(`Path.ofString_text`). The pieces that a path drops are empty or single
dots, so of any other character than a slash or a dot a path has as many as
its text (`Path.sum_count_ofString`). That is how two texts are told to be the
texts of different paths without spelling either path out.
-/

namespace ChangeReview

attribute [ext] Path

namespace Path

/-! ## Pieces -/

/-- The pieces of a text are what the text is split into at its slashes. -/
theorem pieces_eq_splitOn (cs : List Char) : pieces cs = cs.splitOn '/' := by
  induction cs with
  | nil => rfl
  | cons c cs ih =>
    show _ = List.splitOnP (· == '/') (c :: cs)
    rw [List.splitOnP_cons_eq_if_modifyHead, pieces, ih]
    show _ = if (c == '/') = true then _ else List.modifyHead _ (cs.splitOn '/')
    by_cases hc : c = '/'
    · rw [if_pos hc, if_pos (beq_iff_eq.mpr hc)]
      rfl
    · rw [if_neg hc, if_neg (mt beq_iff_eq.mp hc)]
      cases h : cs.splitOn '/' with
      | nil => exact absurd h (List.splitOnP_ne_nil _ _)
      | cons piece more => rfl

theorem pieces_cons_of_ne {c : Char} (hc : c ≠ '/') (cs : List Char) :
    ∃ piece more, pieces cs = piece :: more ∧ pieces (c :: cs) = (c :: piece) :: more := by
  rw [pieces, if_neg hc]
  cases h : pieces cs with
  | nil =>
    rw [pieces_eq_splitOn] at h
    exact absurd h (List.splitOnP_ne_nil _ _)
  | cons piece more => exact ⟨piece, more, rfl, rfl⟩

/-- A piece is what stands between two slashes, so it has none in it. -/
theorem slash_notMem_of_mem_pieces {cs piece : List Char} (h : piece ∈ pieces cs) :
    '/' ∉ piece := by
  induction cs generalizing piece with
  | nil =>
    rw [List.mem_singleton.mp h]
    exact List.not_mem_nil
  | cons c cs ih =>
    by_cases hc : c = '/'
    · rw [pieces, if_pos hc] at h
      rcases List.mem_cons.mp h with rfl | h
      · exact List.not_mem_nil
      · exact ih h
    · obtain ⟨first, more, hcs, hcons⟩ := pieces_cons_of_ne hc cs
      rw [hcs] at ih
      rw [hcons] at h
      rcases List.mem_cons.mp h with rfl | h
      · exact List.not_mem_cons_of_ne_of_not_mem (Ne.symm hc) (ih (.head _))
      · exact ih (.tail _ h)

/-- The last piece ends as the text does. -/
theorem pieces_concat {c : Char} (hc : c ≠ '/') (cs : List Char) :
    ∃ before last, pieces (cs ++ [c]) = before ++ [last ++ [c]] := by
  induction cs with
  | nil => exact ⟨[], [], by rw [List.nil_append, pieces, if_neg hc]; rfl⟩
  | cons d cs ih =>
    obtain ⟨before, last, hcs⟩ := ih
    by_cases hd : d = '/'
    · refine ⟨[] :: before, last, ?_⟩
      rw [List.cons_append, pieces, if_pos hd, hcs]
      rfl
    · obtain ⟨piece, more, hpieces, hcons⟩ := pieces_cons_of_ne hd (cs ++ [c])
      rw [List.cons_append, hcons]
      cases before with
      | nil =>
        obtain ⟨rfl, rfl⟩ := List.cons.inj (hpieces.symm.trans hcs)
        exact ⟨[], d :: last, rfl⟩
      | cons first before =>
        obtain ⟨rfl, rfl⟩ := List.cons.inj (hpieces.symm.trans hcs)
        exact ⟨(d :: piece) :: before, last, rfl⟩

/-- The pieces of a text have its characters, the slashes apart. -/
theorem sum_count_pieces {c : Char} (hc : c ≠ '/') (cs : List Char) :
    ((pieces cs).map (List.count c)).sum = cs.count c := by
  induction cs with
  | nil => rfl
  | cons d cs ih =>
    by_cases hd : d = '/'
    · have hdc : d ≠ c := fun h => hc (h.symm.trans hd)
      rw [pieces, if_pos hd, List.map_cons, List.sum_cons, ih, List.count_cons_of_ne hdc]
      exact Nat.zero_add _
    · obtain ⟨piece, more, hcs, hcons⟩ := pieces_cons_of_ne hd cs
      rw [hcs, List.map_cons, List.sum_cons] at ih
      rw [hcons, List.map_cons, List.sum_cons, List.count_cons, List.count_cons, ← ih]
      exact Nat.add_right_comm _ _ _

/-! ## The path of a text -/

/-- A text that does not start with a slash spells a relative path. -/
theorem root_ofText {cs : List Char} (h : cs.head? ≠ some '/') : Root.ofText cs = .relative := by
  unfold Root.ofText
  split
  · exact absurd rfl h
  · exact absurd rfl h
  · exact absurd rfl h
  · rfl

theorem names_ofString (s : String) :
    (ofString s).names
      = ((pieces s.toList).map String.ofList).filter (fun n => decide (IsName n)) := rfl

section Names

variable {ns : List String} (proper : ∀ n ∈ ns, IsName n)
include proper

/-- **Names put together with slashes are taken apart again.** -/
theorem pieces_names (hne : ns ≠ []) :
    pieces (['/'].intercalate (ns.map String.toList)) = ns.map String.toList := by
  rw [pieces_eq_splitOn]
  refine List.splitOn_intercalate '/' (fun l hl => ?_) (List.map_eq_nil_iff.not.mpr hne)
  obtain ⟨n, hn, rfl⟩ := List.mem_map.mp hl
  exact (proper n hn).2.2

/-- Such a text does not start with a slash. -/
theorem head?_names : (['/'].intercalate (ns.map String.toList)).head? ≠ some '/' := by
  intro h
  by_cases hne : ns = []
  · subst hne
    cases h
  · obtain ⟨cs, hcs⟩ := List.head?_eq_some_iff.mp h
    have hpieces := pieces_names proper hne
    rw [hcs, pieces, if_pos rfl] at hpieces
    -- the first piece of a text that starts with a slash is empty
    obtain ⟨n, hn, hnil⟩ := List.mem_map.mp (hpieces ▸ List.mem_cons_self)
    exact (proper n hn).1 (String.toList_eq_nil_iff.mp hnil)

/-- Reading it gives the names. -/
theorem filter_pieces_names :
    ((pieces (['/'].intercalate (ns.map String.toList))).map String.ofList).filter
      (fun n => decide (IsName n)) = ns := by
  by_cases hne : ns = []
  · subst hne
    rfl
  · rw [pieces_names proper hne, List.map_map]
    show List.filter _ (ns.map fun n => String.ofList n.toList) = ns
    simp only [String.ofList_toList, List.map_id']
    exact List.filter_eq_self.mpr fun n hn => decide_eq_true (proper n hn)

end Names

/-- What stands in front of the first name of a text is its root. -/
theorem ofText_append {cs : List Char} (h : cs.head? ≠ some '/') (root : Root) :
    Root.ofText (root.text.toList ++ cs) = root := by
  cases root with
  | relative => exact root_ofText h
  | slash | doubleSlash =>
    cases cs with
    | nil => rfl
    | cons c cs =>
      have hc : c ≠ '/' := fun hc => h (congrArg some hc)
      simp [Root.text, Root.ofText, hc]

/-- It spells no name. -/
theorem filter_pieces_append (root : Root) (cs : List Char) :
    ((pieces (root.text.toList ++ cs)).map String.ofList).filter (fun n => decide (IsName n))
      = ((pieces cs).map String.ofList).filter (fun n => decide (IsName n)) := by
  cases root <;> rfl

/-- **The text of a path spells the path.** -/
theorem ofString_text (p : Path) : ofString p.text = p := by
  by_cases hhere : p.root = .relative ∧ p.names = []
  · have hp : p = here := Path.ext hhere.1 hhere.2
    rw [hp]
    rfl
  · have htext : p.text.toList
        = p.root.text.toList ++ ['/'].intercalate (p.names.map String.toList) := by
      unfold text
      rw [if_neg hhere, String.toList_append, String.toList_intercalate]
      rfl
    ext1
    · show Root.ofText p.text.toList = p.root
      rw [htext, ofText_append (head?_names p.proper)]
    · rw [names_ofString, htext, filter_pieces_append, filter_pieces_names p.proper]

/-- A piece that is no name is empty or a single dot. -/
theorem piece_of_not_isName {cs piece : List Char} (hmem : piece ∈ pieces cs)
    (h : ¬ IsName (String.ofList piece)) : piece = [] ∨ piece = ['.'] := by
  have hslash := slash_notMem_of_mem_pieces hmem
  unfold IsName at h
  rw [String.toList_ofList] at h
  by_contra hpiece
  rw [not_or] at hpiece
  refine h ⟨fun hnil => hpiece.1 ?_, fun hdot => hpiece.2 ?_, hslash⟩
  · rw [← String.toList_ofList (l := piece), hnil]
    rfl
  · rw [← String.toList_ofList (l := piece), hdot]
    rfl

/-- **A path has the characters of its text**, slashes and dots apart. -/
theorem sum_count_ofString {c : Char} (hslash : c ≠ '/') (hdot : c ≠ '.') (s : String) :
    ((ofString s).names.map fun n => n.toList.count c).sum = s.toList.count c := by
  rw [← sum_count_pieces hslash, names_ofString]
  have key : ∀ ps : List (List Char), (∀ piece ∈ ps, piece ∈ pieces s.toList) →
      (((ps.map String.ofList).filter (fun n => decide (IsName n))).map
        fun n => n.toList.count c).sum = (ps.map (List.count c)).sum := by
    intro ps hps
    induction ps with
    | nil => rfl
    | cons piece ps ih =>
      have hrest := ih fun q hq => hps q (.tail _ hq)
      rw [List.map_cons, List.map_cons, List.sum_cons]
      by_cases hname : IsName (String.ofList piece)
      · rw [List.filter_cons_of_pos (by simpa using hname), List.map_cons, List.sum_cons, hrest,
          String.toList_ofList]
      · rw [List.filter_cons_of_neg (by simpa using hname), hrest]
        -- what is dropped has none of the character
        have hcount : piece.count c = 0 := by
          rcases piece_of_not_isName (hps piece (.head _)) hname with rfl | rfl
          · rfl
          · exact List.count_eq_zero.mpr fun h => hdot (List.mem_singleton.mp h)
        rw [hcount, Nat.zero_add]
  exact key _ fun _ h => h

/-- The name of a path ends as its text does, where that is neither a slash
nor a dot. -/
theorem name_ofString_concat {c : Char} (hslash : c ≠ '/') (hdot : c ≠ '.') (cs : List Char) :
    ∃ last, (ofString (String.ofList (cs ++ [c]))).name.toList = last ++ [c] := by
  obtain ⟨before, last, hpieces⟩ := pieces_concat hslash cs
  have hmem : last ++ [c] ∈ pieces (cs ++ [c]) := by
    rw [hpieces]
    exact List.mem_append_right _ (.head _)
  have hname : IsName (String.ofList (last ++ [c])) := by
    by_contra hnot
    rcases piece_of_not_isName hmem hnot with h | h
    · exact absurd h (List.append_ne_nil_of_right_ne_nil _ (List.cons_ne_nil _ _))
    · exact hdot (List.cons.inj (List.append_inj' (h.trans (List.nil_append _).symm) rfl).2).1
  refine ⟨last, ?_⟩
  unfold name
  rw [names_ofString, String.toList_ofList, hpieces, List.map_append, List.filter_append,
    List.map_singleton, List.filter_cons_of_pos (by simpa using hname), List.filter_nil,
    List.getLast?_append]
  exact String.toList_ofList

/-! ## Endings -/

/-- The ending of a name is what the name ends with. -/
theorem suffixOf_isSuffix (n : List Char) : suffixOf n <:+ n := by
  unfold suffixOf
  split
  · exact List.nil_suffix
  · exact List.nil_suffix
  · exact List.nil_suffix
  · next ending dot c before _ h =>
    rw [List.span_eq_takeWhile_dropWhile] at h
    have hn : n.reverse = ending ++ dot :: c :: before := by
      rw [← (Prod.mk.inj h).1, ← (Prod.mk.inj h).2]
      exact List.takeWhile_append_dropWhile.symm
    refine ⟨(c :: before).reverse, ?_⟩
    rw [← List.reverse_reverse n, hn]
    simp

/-- A path whose name ends in a character has no ending that ends in
another. -/
theorem suffix_ne_of_name {p : Path} {n last : List Char} {c d : Char} (hcd : c ≠ d)
    (h : p.name.toList = last ++ [c]) : p.suffix ≠ String.ofList (n ++ [d]) := by
  intro hsuffix
  have hend := suffixOf_isSuffix p.name.toList
  rw [String.ofList_inj.mp hsuffix, h] at hend
  obtain ⟨before, hbefore⟩ := hend
  rw [← List.append_assoc] at hbefore
  exact hcd (List.cons.inj (List.append_inj' hbefore rfl).2).1.symm

/-! ## Paths seen from elsewhere -/

/-- A path to something inside a directory: relative, with at least one name. -/
structure IsInner (p : Path) : Prop where
  relative : p.root = .relative
  named : p.names ≠ []

section Join

variable {base p : Path}

theorem isAbsolute_of_relative (h : p.root = .relative) : p.isAbsolute = false := by
  unfold isAbsolute
  rw [h]
  rfl

theorem root_join (h : p.root = .relative) : (base / p).root = base.root := by
  show (join base p).root = _
  unfold join
  rw [isAbsolute_of_relative h]
  rfl

theorem names_join (h : p.root = .relative) : (base / p).names = base.names ++ p.names := by
  show (join base p).names = _
  unfold join
  rw [isAbsolute_of_relative h]
  rfl

/-- **A relative path is found again** when it is seen from elsewhere and then
from there. -/
theorem relativeTo?_join (h : p.root = .relative) : (base / p).relativeTo? base = some p := by
  unfold relativeTo?
  rw [if_pos ⟨root_join h, names_join h ▸ List.prefix_append _ _⟩]
  congr 1
  ext1
  · exact h.symm
  · show (base / p).names.drop _ = p.names
    rw [names_join h, List.drop_left]

/-- The path from a directory is the relative one that leads from there. -/
theorem relativeTo?_eq_some_iff {q : Path} :
    q.relativeTo? base = some p ↔ p.root = .relative ∧ base / p = q := by
  constructor
  · intro h
    unfold relativeTo? at h
    split at h
    · next hbase =>
      obtain rfl := Option.some.inj h
      refine ⟨rfl, Path.ext ((root_join rfl).trans hbase.1.symm) ?_⟩
      rw [names_join rfl]
      exact List.prefix_iff_eq_append.mp hbase.2
    · cases h
  · rintro ⟨hp, rfl⟩
    exact relativeTo?_join hp

/-- Different relative paths stay different seen from elsewhere. -/
theorem join_inj {q : Path} (hp : p.root = .relative) (hq : q.root = .relative) :
    base / p = base / q ↔ p = q := by
  refine ⟨fun h => ?_, congrArg (base / ·)⟩
  have hfound : (base / p).relativeTo? base = some p := relativeTo?_join hp
  rw [h, relativeTo?_join hq] at hfound
  exact (Option.some.inj hfound).symm

/-- A path seen from a root hangs on it. -/
theorem isAbsolute_join (hbase : base.isAbsolute) (h : p.root = .relative) :
    (base / p).isAbsolute := by
  unfold isAbsolute
  rw [root_join h]
  exact hbase

/-- A relative path that is not empty has the same name seen from
elsewhere. -/
theorem name_join (hrelative : p.root = .relative) (hne : p.names ≠ []) :
    (base / p).name = p.name := by
  unfold name
  rw [names_join hrelative, List.getLast?_append, List.getLast?_eq_some_getLast hne]
  rfl

/-- The text of an inner path is nothing but its names. -/
theorem IsInner.text (hp : p.IsInner) : p.text = "/".intercalate p.names := by
  unfold Path.text
  rw [if_neg fun h => hp.named h.2, hp.relative]
  exact String.empty_append

/-- **The text of an inner path stands at the end** of what it is seen from a
root, behind a slash. -/
theorem text_join (hbase : base.isAbsolute) (hp : p.IsInner) :
    ∃ front, (base / p).text = front ++ "/" ++ p.text := by
  have hroot : base.root ≠ .relative := by simpa [isAbsolute] using hbase
  have htext : (base / p).text = base.root.text ++ "/".intercalate (base.names ++ p.names) := by
    unfold text
    rw [root_join hp.relative, if_neg fun h => hroot h.1, names_join hp.relative]
  rw [htext, hp.text]
  by_cases hnames : base.names = []
  · -- the slash is that of the root
    rw [hnames, List.nil_append]
    cases hr : base.root with
    | relative => exact absurd hr hroot
    | slash => exact ⟨"", rfl⟩
    | doubleSlash => exact ⟨"/", rfl⟩
  · rw [String.intercalate_append_of_ne_nil hnames hp.named]
    exact ⟨base.root.text ++ "/".intercalate base.names, by simp only [String.append_assoc]⟩

end Join

/-- The text of a path that hangs on a root starts with a slash. -/
theorem head?_text {p : Path} (h : p.isAbsolute) : p.text.toList.head? = some '/' := by
  have hroot : p.root ≠ .relative := by simpa [isAbsolute] using h
  unfold text
  rw [if_neg fun hhere => hroot hhere.1, String.toList_append]
  cases hp : p.root with
  | relative => exact absurd hp hroot
  | slash | doubleSlash => rfl

end Path

end ChangeReview
