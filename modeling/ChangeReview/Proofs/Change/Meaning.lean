import ChangeReview.Proofs.Change.Rendering

/-!
# What the written lines mean

Between hunks the reader takes a line for what its shape says
(`HeaderLine.ofText`). Here is what it takes each line of a file section
for: the first line for the names it can cut out of it, the header of a
hunk for that hunk, the two lines before the first hunk for the names of
the sides, and all the others for nothing in particular, except that a new
file and a deleted one are told.
-/

namespace ChangeReview

namespace HeaderLine

/-- What stands behind a word is found behind it. -/
theorem isPrefixOf?_append (word cs : List Char) : word.isPrefixOf? (word ++ cs) = some cs :=
  List.isPrefixOf?_eq_some_iff_append_eq.2 rfl

/-- A run of characters of one class ends where the next is of another. -/
theorem span_append {p : Char → Bool} {xs ys : List Char} (hx : ∀ c ∈ xs, p c = true)
    (hy : ∀ c ∈ ys.head?, p c = false) : (xs ++ ys).span p = (xs, ys) := by
  rw [List.span_eq_takeWhile_dropWhile, List.takeWhile_append_of_pos hx,
    List.dropWhile_append_of_pos hx]
  match ys with
  | [] => simp
  | y :: ys =>
    have hy' : ¬ p y = true := by simp [hy y rfl]
    rw [List.takeWhile_cons_of_neg hy', List.dropWhile_cons_of_neg hy', List.append_nil]

/-- **A number that was written is read back**, and what stands behind it is
left. -/
theorem number?_digits (n : Nat) {rest : List Char} (h : ∀ c ∈ rest.head?, Text.isDigit c = false) :
    number? (Text.digits n ++ rest) = some (n, rest) := by
  rw [number?, span_append (fun _ => Text.isDigit_of_mem_digits) h]
  have hvalue := Text.value_digits n
  cases hd : Text.digits n with
  | nil => exact absurd hd (Text.digits_ne_nil n)
  | cons d ds =>
    rw [hd] at hvalue
    exact congrArg (fun v => some (v, rest)) hvalue

/-- **A stretch of lines that was written is read back**, whether its length
is left out or not. -/
theorem range?_stretch (start length : Nat) (brief : Bool) {rest : List Char}
    (h : ∀ c ∈ rest.head?, Text.isDigit c = false ∧ c ≠ ',') :
    range? (stretch start length brief ++ rest) = some (start, length, rest) := by
  have hrest : ∀ c ∈ rest.head?, Text.isDigit c = false := fun c hc => (h c hc).1
  unfold stretch
  split
  · rename_i hbrief
    obtain ⟨-, hlength⟩ : brief = true ∧ length = 1 := by simpa using hbrief
    rw [List.append_nil, range?, number?_digits start hrest, hlength]
    match rest, h with
    | [], _ => rfl
    | c :: rest, h =>
      have hc : c ≠ ',' := (h c rfl).2
      simp only [Option.bind_eq_bind, Option.bind_some]
      split
      · rename_i heq
        exact absurd (List.cons.inj heq).1 hc
      · rfl
  · have hcomma : ∀ c ∈ (',' :: Text.digits length ++ rest).head?, Text.isDigit c = false := by
      rintro c ⟨⟩
      decide
    rw [List.append_assoc, range?, number?_digits start hcomma]
    simp only [List.cons_append, Option.bind_eq_bind, Option.bind_some]
    rw [number?_digits length hrest]
    rfl

/-- A line proper ends at its line feed. -/
theorem takeWhile_inLine (t : LineText) (more : List Char) :
    (t.chars ++ '\n' :: more).takeWhile inLine = t.chars := by
  have hall : ∀ c ∈ t.chars, inLine c = true := by
    intro c hc
    simp only [inLine, bne_iff_ne]
    rintro rfl
    exact t.unbroken hc
  rw [List.takeWhile_append_of_pos hall, List.takeWhile_cons_of_neg (by decide), List.append_nil]

/-- The heading of a hunk is found behind a space, where there is one. -/
theorem takeWhile_heading (t : LineText) {cs : List Char}
    (hcs : cs = (if t.chars = [] then [] else ' ' :: t.chars) ++ ['\n']) :
    ((([' '].isPrefixOf? cs).getD cs)).takeWhile inLine = t.chars := by
  split at hcs
  · rename_i hnil
    rw [hcs, hnil]
    rfl
  · rw [hcs]
    exact takeWhile_inLine t []

/-! ## Lines of a file section -/

/-- **The header of a hunk says what it was written for**; the lines of the
hunk are yet to come. -/
theorem hunk?_header (old new : Nat) (x : Excerpt) :
    hunk? (x.header old new ++ ['\n']) = some { x.hunk old new with lines := #[] } := by
  have hplus : ∀ tail : List Char,
      ∀ c ∈ (" +".toList ++ tail).head?, Text.isDigit c = false ∧ c ≠ ',' := by
    rintro tail c ⟨⟩
    decide
  have hat : ∀ tail : List Char,
      ∀ c ∈ (" @@".toList ++ tail).head?, Text.isDigit c = false ∧ c ≠ ',' := by
    rintro tail c ⟨⟩
    decide
  unfold Excerpt.header
  simp only [List.append_assoc]
  rw [hunk?, isPrefixOf?_append, Option.bind_eq_bind, Option.bind_some,
    range?_stretch _ _ _ (hplus _), Option.bind_eq_bind, Option.bind_some]
  dsimp only
  rw [isPrefixOf?_append, Option.bind_some, range?_stretch _ _ _ (hat _), Option.bind_some]
  dsimp only
  rw [isPrefixOf?_append, Option.bind_some, takeWhile_heading x.heading rfl]
  rfl

/-- The name of a side ends at the tab or at the end of the line, and no
time stamp stands behind it. -/
theorem nameAndStamp_nameLine {name : List Char} (h : ∀ c ∈ name, inName c = true) :
    nameAndStamp (name ++ ((if ' ' ∈ name then ['\t'] else []) ++ ['\n']))
      = (String.ofList name, none) := by
  have hend : ∀ c ∈ ((if ' ' ∈ name then ['\t'] else []) ++ ['\n']).head?, inName c = false := by
    split <;> (rintro c ⟨⟩; decide)
  rw [nameAndStamp, span_append h hend]
  by_cases hspace : ' ' ∈ name
  · simp only [if_pos hspace]
    rfl
  · simp only [if_neg hspace]
    rfl

theorem ofText_sourceWord (rest : List Char) :
    ofText ("--- ".toList ++ rest) = .sourceName (nameAndStamp rest).1 (nameAndStamp rest).2 := by
  unfold ofText
  rw [isPrefixOf?_append]
  rfl

theorem ofText_targetWord (rest : List Char) :
    ofText ("+++ ".toList ++ rest) = .targetName (nameAndStamp rest).1 (nameAndStamp rest).2 := by
  unfold ofText
  rw [isPrefixOf?_append]
  rfl

/-- The line that names the old side. -/
theorem ofText_sourceName {name : List Char} (h : ∀ c ∈ name, inName c = true) :
    ofText (FileEdit.nameLine "--- " name ++ ['\n']) = .sourceName (String.ofList name) none := by
  rw [FileEdit.nameLine, List.append_assoc, List.append_assoc, ofText_sourceWord,
    nameAndStamp_nameLine h]

/-- The line that names the new side. -/
theorem ofText_targetName {name : List Char} (h : ∀ c ∈ name, inName c = true) :
    ofText (FileEdit.nameLine "+++ " name ++ ['\n']) = .targetName (String.ofList name) none := by
  rw [FileEdit.nameLine, List.append_assoc, List.append_assoc, ofText_targetWord,
    nameAndStamp_nameLine h]

theorem ofText_at {cs : List Char} {h : Hunk} (hh : hunk? ('@' :: cs) = some h) :
    ofText ('@' :: cs) = .hunk h := by
  unfold ofText
  rw [hh]
  rfl

/-- The header of a hunk. -/
theorem ofText_header (old new : Nat) (x : Excerpt) :
    ofText (x.header old new ++ ['\n']) = .hunk { x.hunk old new with lines := #[] } := by
  obtain ⟨cs, hcs⟩ : ∃ cs, x.header old new ++ ['\n'] = '@' :: cs := ⟨_, rfl⟩
  have hh := hunk?_header old new x
  rw [hcs] at hh ⊢
  exact ofText_at hh

/-- The remark that a line lacks its line end. -/
theorem ofText_noLineEndRemark : ofText (noLineEndRemark ++ ['\n']) = .noLineEnd := rfl

/-- A section is read to be about the two names that its first line is cut
into. -/
theorem ofText_names {rest a b : List Char} (h : twoNames? rest = some (a, b)) :
    ofText ("diff --git ".toList ++ rest) = .file (String.ofList a) (String.ofList b) := by
  unfold ofText
  rw [isPrefixOf?_append, Option.bind_some, h]

/-- The first line of a section, where its two names are told apart. -/
theorem ofText_firstLine {quotePath : Bool} {f : FileEdit} {a b : List Char}
    (h : twoNames? (f.kind.source.sideName quotePath 'a' ++
      ' ' :: f.kind.target.sideName quotePath 'b' ++ ['\n']) = some (a, b)) :
    ofText (f.firstLine quotePath ++ ['\n']) = .file (String.ofList a) (String.ofList b) := by
  unfold FileEdit.firstLine
  rw [List.append_assoc]
  exact ofText_names h

/-- A text does not start with a word that starts with another character. -/
theorem isPrefixOf?_eq_none {word : String} {d c : Char} {cs : List Char}
    (hword : word.toList.head? = some d) (hne : d ≠ c) :
    word.toList.isPrefixOf? (c :: cs) = none := by
  match word.toList, hword with
  | e :: es, hword =>
    obtain rfl : e = d := by simpa using hword
    simp [List.isPrefixOf?, hne]

theorem isPrefixOf_eq_false {word : String} {d c : Char} {cs : List Char}
    (hword : word.toList.head? = some d) (hne : d ≠ c) :
    word.toList.isPrefixOf (c :: cs) = false := by
  match word.toList, hword with
  | e :: es, hword =>
    obtain rfl : e = d := by simpa using hword
    simp [List.isPrefixOf, hne]

/-- **A line says nothing in particular** when none of the words that say
something starts as it does; of the lines that tell a mode, only the one of
a new file says something. -/
theorem ofText_eq_other {c : Char} {cs : List Char}
    (hc : c ∉ ['d', '-', '+', '@', '\\', '\n', 'B', 'G'])
    (hnew : ("new file mode ".toList.isPrefixOf? (c :: cs)).any isMode = false) :
    ofText (c :: cs) = .other := by
  simp only [List.mem_cons, List.not_mem_nil, or_false, not_or] at hc
  obtain ⟨hd, hminus, hplus, hat, hslash, hline, hB, hG⟩ := hc
  have hbinary : binary? (c :: cs) = none := by
    rw [binary?, isPrefixOf?_eq_none (d := 'B') rfl (Ne.symm hB),
      isPrefixOf?_eq_none (d := 'B') rfl (Ne.symm hB)]
    rfl
  have hhunk : hunk? (c :: cs) = none := by
    rw [hunk?, isPrefixOf?_eq_none (d := '@') rfl (Ne.symm hat)]
    rfl
  have hpatch : ¬ c :: cs = "GIT binary patch\n".toList := fun h => hG (List.cons.inj h).1
  have hempty : ¬ c :: cs = ['\n'] := fun h => hline (List.cons.inj h).1
  unfold ofText
  rw [hnew, isPrefixOf?_eq_none (d := 'd') rfl (Ne.symm hd),
    isPrefixOf?_eq_none (d := 'd') rfl (Ne.symm hd),
    isPrefixOf?_eq_none (d := '-') rfl (Ne.symm hminus),
    isPrefixOf?_eq_none (d := '+') rfl (Ne.symm hplus),
    isPrefixOf_eq_false (d := '\\') rfl (Ne.symm hslash), hbinary, hhunk, if_neg hpatch,
    if_neg hempty]
  rfl

/-- The lines for a change of mode. -/
theorem ofText_modeLines {modes : Option (FileMode × FileMode)} {l : List Char}
    (h : l ∈ FileEdit.Kind.modeLines modes) : ofText (l ++ ['\n']) = .other := by
  match modes with
  | none => cases h
  | some (old, new) =>
    simp only [FileEdit.Kind.modeLines, List.mem_cons, List.not_mem_nil, or_false] at h
    obtain rfl | rfl := h
    · exact ofText_eq_other (by decide) rfl
    · exact ofText_eq_other (by decide) rfl

/-- The line with the names of the two contents. -/
theorem ofText_indexLine (f : FileEdit) : ofText (f.indexLine ++ ['\n']) = .other :=
  ofText_eq_other (by decide) rfl

/-- The lines of a renamed file that tell how much it is still the same. -/
theorem ofText_renameLines {quotePath : Bool} {source target : RepoPath} {similarity : Nat}
    {l : List Char} (h : l ∈ FileEdit.Kind.renameLines quotePath source target similarity) :
    ofText (l ++ ['\n']) = .other := by
  simp only [FileEdit.Kind.renameLines, List.mem_cons, List.not_mem_nil, or_false] at h
  obtain rfl | rfl | rfl := h
  · exact ofText_eq_other (by decide) rfl
  · exact ofText_eq_other (by decide) rfl
  · exact ofText_eq_other (by decide) rfl

/-- A mode is one at the end of its line. -/
theorem isMode_chars (m : FileMode) : isMode (m.chars ++ ['\n']) = true := by
  have hdigit : ∀ n < 10, Text.isDigit (Text.digit n) = true := by decide
  have hall : ∀ c ∈ m.chars, Text.isDigit c = true := by
    intro c hc
    obtain ⟨d, -, rfl⟩ := List.mem_map.1 hc
    exact hdigit d (Nat.lt_trans d.isLt (by decide))
  have hend : ∀ c ∈ ['\n'].head?, Text.isDigit c = false := by
    rintro c ⟨⟩
    decide
  have hne : m.chars ≠ [] := fun h => m.nonempty (List.map_eq_nil_iff.1 h)
  rw [isMode, span_append hall hend]
  simp [hne]

theorem ofText_newFile (m : FileMode) :
    ofText ("new file mode ".toList ++ m.chars ++ ['\n']) = .newFile := by
  unfold ofText
  rw [List.append_assoc, isPrefixOf?_append, Option.any_some, isMode_chars]
  rfl

theorem ofText_deletedFile (m : FileMode) :
    ofText ("deleted file mode ".toList ++ m.chars ++ ['\n']) = .deletedFile := by
  unfold ofText
  rw [List.append_assoc, isPrefixOf?_append, Option.any_some, isMode_chars]
  rfl

end HeaderLine
end ChangeReview
