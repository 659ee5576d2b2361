import ChangeReview.Proofs.Yaml.Scalars
import ChangeReview.Yaml.Token.Stream

/-!
# Lists of quoted texts, token by token

A document with one key and a list of quoted texts under it, an entry on each
line, comes to the tokens that one expects, whatever the texts are
(`Token.ofText?_items`).

The way there follows the lines. At the end of each of them the scan is in one
and the same situation (`Scan.Awaits`): no flow collection is open, and if a
node is still remembered as one that may turn out to be a key, then it is not a
required one, and it is given up together with its line. That is what keeps the
texts out of harm's way. Each of them is such a node, however long it is, and
what stands in it is read before anybody asks for columns, keys or documents
again. The first entry opens a block and the others go on with it, so there are
two kinds of entries (`Scan.Awaits.run_entry`) and an induction over the rest
(`Scan.Awaits.run_entries`).
-/

namespace ChangeReview.Yaml

/-- The place behind characters of the same line. -/
theorem Cursor.advance_append {cs : List Char} (h : ∀ c ∈ cs, isBreak c = false ∧ c ≠ '\uFEFF')
    (rest : List Char) (index line column : Nat) :
    (⟨cs ++ rest, index, line, column⟩ : Cursor).advance cs.length
      = ⟨rest, index + cs.length, line, column + cs.length⟩ := by
  induction cs generalizing index column with
  | nil => rfl
  | cons c cs ih =>
    obtain ⟨⟨hbreak, hmark⟩, hcs⟩ := List.forall_mem_cons.mp h
    have hnext : (⟨c :: cs ++ rest, index, line, column⟩ : Cursor).next
        = ⟨cs ++ rest, index + 1, line, column + 1⟩ := by
      unfold next
      simp [hbreak, hmark]
    rw [List.length_cons, advance, hnext, ih hcs, Nat.add_right_comm index,
      Nat.add_right_comm column]
    rfl

/-- The place behind spaces. -/
theorem Cursor.advance_spaces (n : Nat) (rest : List Char) (index line column : Nat) :
    (⟨List.replicate n ' ' ++ rest, index, line, column⟩ : Cursor).advance n
      = ⟨rest, index + n, line, column + n⟩ := by
  have hspaces : ∀ c ∈ List.replicate n ' ', isBreak c = false ∧ c ≠ '\uFEFF' := fun c hc => by
    rw [List.eq_of_mem_replicate hc]
    decide
  have hadvance := advance_append hspaces rest index line column
  rwa [List.length_replicate] at hadvance

/-- The tokens of entries that hold quoted texts. -/
def Token.ofEntries (items : List (List Char)) : List Token :=
  items.flatMap fun cs => [.blockEntry, .scalar (String.ofList cs) false]

namespace Scan

variable {s : Scan} {rest : List Char} {n : Nat}

/-! ## From token to token -/

theorem gap_spaces (h : gap false rest = (0, false)) (n : Nat) :
    gap false (List.replicate n ' ' ++ rest) = (n, false) := by
  induction n with
  | zero => exact h
  | succ n ih =>
    rw [List.replicate_succ, List.cons_append, gap]
    simp [isBreak, ih]

theorem skipGap_eq (h : s.cursor.rest.head? ≠ some '\uFEFF') :
    s.skipGap = { s.advance (gap false s.cursor.rest).1 with
      keyAllowed := s.keyAllowed || ((gap false s.cursor.rest).2 && !s.inFlow) } := by
  unfold skipGap
  rw [if_neg fun h' => h h'.2]

theorem dropStale_eq (hflow : s.outerCandidates = []) {candidate : Option Candidate}
    (h : Candidate.at? s.cursor s.candidate = some candidate) :
    s.dropStale = some { s with candidate } := by
  obtain ⟨cursor, indent, outer, current, outerCandidates, keyAllowed, tokens, count⟩ := s
  obtain rfl : outerCandidates = [] := hflow
  unfold dropStale
  rw [h]
  rfl

/-- No block ends at a place that is indented deeply enough. -/
theorem unwind_of_le {column : Int} (h : s.indent ≤ column) : s.unwind column = s := by
  unfold unwind
  split
  · rfl
  · have hclose : closeBlocks column s.indent s.outer = (0, s.indent, s.outer) := by
      cases s.outer with
      | nil => exact if_neg (Int.not_lt.mpr h)
      | cons next outer => exact if_neg (Int.not_lt.mpr h)
    rw [hclose]
    rfl

/-- **Where the next token is**, outside flow collections. -/
theorem settle_eq (hflow : s.outerCandidates = []) (h : s.cursor.rest.head? ≠ some '\uFEFF')
    {cursor : Cursor} {candidate : Option Candidate}
    (hcursor : s.cursor.advance (gap false s.cursor.rest).1 = cursor)
    (hcandidate : Candidate.at? cursor s.candidate = some candidate) :
    s.settle = some (Scan.unwind { s with
      cursor, candidate, keyAllowed := s.keyAllowed || (gap false s.cursor.rest).2 }
        cursor.column) := by
  subst hcursor
  have hinFlow : s.inFlow = false := by
    unfold inFlow
    rw [hflow]
    rfl
  have hskip := skipGap_eq h
  rw [hinFlow, Bool.not_false, Bool.and_true] at hskip
  have hdrop : s.skipGap.dropStale = some { s.skipGap with candidate } :=
    dropStale_eq (by rw [hskip]; exact hflow) (by rw [hskip]; exact hcandidate)
  unfold settle
  rw [hdrop, hskip]
  rfl

/-- A place in a block where a key may start, and where nothing is remembered. -/
def fresh (cursor : Cursor) (indent : Int) (outer : List Int) (tokens : List Token) (count : Nat) :
    Scan :=
  ⟨cursor, indent, outer, none, [], true, tokens, count⟩

/-- The next token can be behind a line end and spaces. -/
theorem settle_newLine (hflow : s.outerCandidates = [])
    (hstale : ∀ k, s.candidate = some k → k.required = false ∧ k.line ≤ s.cursor.line)
    (hrest : s.cursor.rest = '\n' :: (List.replicate n ' ' ++ rest))
    (hgap : gap false rest = (0, false)) :
    s.settle = some ((fresh ⟨rest, s.cursor.index + 1 + n, s.cursor.line + 1, n⟩ s.indent s.outer
      s.tokens s.count).unwind n) := by
  have hwhole : gap false s.cursor.rest = (n + 1, true) := by
    rw [hrest, gap]
    simp [isBreak, gap_spaces hgap]
  have hcursor : s.cursor.advance (gap false s.cursor.rest).1
      = ⟨rest, s.cursor.index + 1 + n, s.cursor.line + 1, n⟩ := by
    have hnext : s.cursor.next
        = ⟨List.replicate n ' ' ++ rest, s.cursor.index + 1, s.cursor.line + 1, 0⟩ := by
      unfold Cursor.next
      rw [hrest]
      rfl
    rw [hwhole, Cursor.advance, hnext, Cursor.advance_spaces, Nat.zero_add]
  have hcandidate : Candidate.at? ⟨rest, s.cursor.index + 1 + n, s.cursor.line + 1, n⟩ s.candidate
      = some none := by
    unfold Candidate.at?
    split
    · rfl
    · next k hk =>
      obtain ⟨hrequired, hline⟩ := hstale k hk
      rw [if_neg fun h => absurd h.1 (by dsimp only; omega), hrequired]
      rfl
  have hmark : s.cursor.rest.head? ≠ some '\uFEFF' := by
    rw [hrest]
    exact (by decide : some '\n' ≠ some '\uFEFF')
  rw [settle_eq hflow hmark hcursor hcandidate, hwhole, Bool.or_true, hflow]
  rfl

theorem run_of_token {t u : Scan} {c : Char} (hsettle : s.settle = some t)
    (hrest : t.cursor.rest = c :: rest) (htoken : t.token c rest = some u) (fuel : Nat) :
    run (fuel + 1) s = run fuel u := by
  rw [run, hsettle, Option.bind_eq_bind, Option.bind_some, hrest]
  show t.token c rest >>= _ = _
  rw [htoken]
  rfl

/-- At the end of the text all blocks are closed. -/
theorem run_of_end {t : Scan} {closed : List Token} (hsettle : s.settle = some t)
    (hrest : t.cursor.rest = [])
    (hclosed : (t.unwind (-1)).dropCandidate.map (·.tokens) = some closed) (fuel : Nat) :
    run (fuel + 1) s = some closed.reverse := by
  obtain ⟨u, hu, rfl⟩ := Option.map_eq_some_iff.mp hclosed
  rw [run, hsettle, Option.bind_eq_bind, Option.bind_some, hrest]
  show (t.unwind (-1)).dropCandidate >>= _ = _
  rw [hu]
  rfl

/-! ## Tokens -/

variable {index line column count : Nat} {indent : Int} {outer : List Int} {tokens : List Token}
  {c : Char}

/-- The next token can be behind some spaces, or right here. -/
theorem settle_spaces (hgap : gap false (c :: rest) = (0, false)) (hmark : c ≠ '\uFEFF')
    (hindent : indent ≤ (column + n : Nat)) :
    (fresh ⟨List.replicate n ' ' ++ c :: rest, index, line, column⟩ indent outer tokens count).settle
      = some (fresh ⟨c :: rest, index + n, line, column + n⟩ indent outer tokens count) := by
  have hcursor : (⟨List.replicate n ' ' ++ c :: rest, index, line, column⟩ : Cursor).advance
      (gap false (List.replicate n ' ' ++ c :: rest)).1
        = ⟨c :: rest, index + n, line, column + n⟩ := by
    rw [gap_spaces hgap, Cursor.advance_spaces]
  have hhead : (List.replicate n ' ' ++ c :: rest).head? ≠ some '\uFEFF' := by
    cases n with
    | zero => exact fun h => hmark (Option.some.inj h)
    | succ n => exact (by decide : some ' ' ≠ some '\uFEFF')
  have hsettle := settle_eq
    (s := fresh ⟨List.replicate n ' ' ++ c :: rest, index, line, column⟩ indent outer tokens count)
    rfl hhead hcursor rfl
  exact hsettle.trans (congrArg some (unwind_of_le hindent))

/-- A block is opened where the place is deeper than the blocks around it. -/
theorem openBlock_fresh (cursor : Cursor) (t : Token) :
    (fresh cursor indent outer tokens count).openBlock column t
      = if indent < column then fresh cursor column (indent :: outer) (t :: tokens) (count + 1)
        else fresh cursor indent outer tokens count :=
  rfl

/-- A dash is that of an entry, which can be the first one of a block. -/
theorem token_dash (hcolumn : column ≠ 0) :
    (fresh ⟨'-' :: ' ' :: rest, index, line, column⟩ indent outer tokens count).token '-'
        (' ' :: rest)
      = some (if indent < column then
          fresh ⟨' ' :: rest, index + 1, line, column + 1⟩ column (indent :: outer)
            (.blockEntry :: .blockSequenceStart :: tokens) (count + 2)
        else fresh ⟨' ' :: rest, index + 1, line, column + 1⟩ indent outer (.blockEntry :: tokens)
          (count + 1)) := by
  have hentry :
      (fresh ⟨'-' :: ' ' :: rest, index, line, column⟩ indent outer tokens count).token '-'
          (' ' :: rest)
        = (fresh ⟨'-' :: ' ' :: rest, index, line, column⟩ indent outer tokens count).blockEntry := by
    unfold token
    simp [fresh, hcolumn, atBlank, isBlank]
  rw [hentry]
  show (dropCandidate (openBlock (fresh ⟨'-' :: ' ' :: rest, index, line, column⟩ indent outer
    tokens count) column .blockSequenceStart) >>= _) = _
  rw [openBlock_fresh]
  by_cases h : indent < column
  · rw [if_pos h, if_pos h]
    rfl
  · rw [if_neg h, if_neg h]
    rfl

/-- A text between quotes is remembered as one that may turn out to be a key,
but never as one that has to. -/
theorem token_quote {cs : List Char} (hcs : ∀ c ∈ cs, isBreak c = false)
    (hrest : rest.head? ≠ some '\'') (hcolumn : column ≠ 0) (hindent : indent ≠ column)
    {cursor : Cursor}
    (hcursor : (⟨'\'' :: (Quoted.double cs ++ '\'' :: rest), index, line, column⟩ : Cursor).advance
      ((Quoted.double cs).length + 2) = cursor) :
    (fresh ⟨'\'' :: (Quoted.double cs ++ '\'' :: rest), index, line, column⟩ indent outer tokens
        count).token '\'' (Quoted.double cs ++ '\'' :: rest)
      = some ⟨cursor, indent, outer, some ⟨count, false, index, line, column⟩, [],
        false, .scalar (String.ofList cs) false :: tokens, count + 1⟩ := by
  have hscalar :
      (fresh ⟨'\'' :: (Quoted.double cs ++ '\'' :: rest), index, line, column⟩ indent outer tokens
          count).token '\'' (Quoted.double cs ++ '\'' :: rest)
        = (fresh ⟨'\'' :: (Quoted.double cs ++ '\'' :: rest), index, line, column⟩ indent outer
          tokens count).quotedScalar false := by
    unfold token
    simp [fresh, hcolumn, inFlow]
  have hread : Quoted.read false 0 .none (Quoted.double cs ++ '\'' :: rest)
      = some (cs, (Quoted.double cs).length + 1) :=
    Quoted.read_double hcs hrest (show Quoted.Gap.none.IsInline from trivial)
  have hrequired : (indent == (column : Int)) = false := beq_false_of_ne hindent
  subst hcursor
  rw [hscalar]
  unfold quotedScalar
  simp only [fresh, List.drop_succ_cons, List.drop_zero, hread]
  unfold nodeStart saveCandidate
  simp only [inFlow, List.isEmpty_nil, Bool.not_true, Bool.not_false, Bool.true_and, hrequired,
    if_true]
  rfl

/-- A letter is where a plain text starts. -/
theorem token_letter (hc : IsLetter c) : s.token c rest = s.plainScalar := by
  have hindicator : c ∉ indicators := fun h => by
    have hall : ∀ d ∈ indicators, ¬ IsLetter d := by
      unfold indicators IsLetter
      simp
    exact hall c h hc
  have hplain : startsPlain s.inFlow (c :: rest) = true := by
    unfold startsPlain isBlank
    simp [hindicator, hc.isPrintable.isBreak, hc.ne (d := ' ') (by decide),
      hc.ne (d := '\t') (by decide)]
  have hstart : atDocumentStart (c :: rest) = false := by
    unfold atDocumentStart
    split
    · next h => exact absurd (List.cons.inj h).1 (hc.ne (by decide))
    · rfl
  have hend : atDocumentEnd (c :: rest) = false := by
    unfold atDocumentEnd
    split
    · next h => exact absurd (List.cons.inj h).1 (hc.ne (by decide))
    · rfl
  unfold token
  simp only [hplain, hstart, hend, hc.ne (d := '%') (by decide), hc.ne (d := '[') (by decide),
    hc.ne (d := ']') (by decide), hc.ne (d := '\x7b') (by decide), hc.ne (d := '\x7d') (by decide),
    hc.ne (d := ',') (by decide), hc.ne (d := '-') (by decide), hc.ne (d := '?') (by decide),
    hc.ne (d := ':') (by decide), hc.ne (d := '*') (by decide), hc.ne (d := '&') (by decide),
    hc.ne (d := '!') (by decide), hc.ne (d := '|') (by decide), hc.ne (d := '>') (by decide),
    hc.ne (d := '\'') (by decide), hc.ne (d := '"') (by decide), and_false, false_and, if_false,
    if_true, Bool.false_eq_true]

/-! ## The key -/

/-- The scan stands at the end of a line in a block: what is left of the text,
the columns of the blocks, and the tokens so far. -/
structure Awaits (s : Scan) (indent : Int) (outer : List Int) (tokens : List Token)
    (rest : List Char) : Prop where
  rest_eq : s.cursor.rest = rest
  indent_eq : s.indent = indent
  outer_eq : s.outer = outer
  tokens_eq : s.tokens = tokens
  block : s.outerCandidates = []
  deep : indent ≤ s.cursor.column
  /-- What may turn out to be a key is given up with the line. -/
  stale : ∀ k, s.candidate = some k → k.required = false ∧ k.line ≤ s.cursor.line

/-- A word that a document can start with as a key. -/
structure IsKey (key : List Char) : Prop where
  ne_nil : key ≠ []
  length_le : key.length ≤ keyLimit
  letter : ∀ c ∈ key, IsLetter c

/-- The state behind a first word, which may turn out to be a key. -/
def behindWord (word rest : List Char) : Scan :=
  ⟨⟨rest, word.length, 0, word.length⟩, -1, [], some ⟨0, false, 0, 0, 0⟩, [], false,
    [.scalar (String.ofList word) true], 1⟩

variable {key : List Char}

theorem run_word (hkey : IsKey key) (hrest : atBlank rest = true) (fuel : Nat) :
    run (fuel + 1) (.start (key ++ ':' :: rest)) = run fuel (behindWord key (':' :: rest)) := by
  obtain ⟨c, cs, rfl⟩ := List.exists_cons_of_ne_nil hkey.ne_nil
  have hc := hkey.letter c List.mem_cons_self
  have hplain : ∀ d ∈ c :: cs, isBreak d = false ∧ d ≠ '\uFEFF' := fun d hd =>
    ⟨(hkey.letter d hd).isPrintable.isBreak, (hkey.letter d hd).ne (by decide)⟩
  have hgap : gap false (c :: (cs ++ ':' :: rest)) = (0, false) := by
    rw [gap]
    simp [hc.isPrintable.isBreak, hc.ne (d := ' ') (by decide), hc.ne (d := '#') (by decide)]
  have htoken : (start (c :: cs ++ ':' :: rest)).token c (cs ++ ':' :: rest)
      = some (behindWord (c :: cs) (':' :: rest)) := by
    have hread := Plain.read_word hkey.letter hrest
    have hcursor := Cursor.advance_append hplain (':' :: rest) 0 0 0
    rw [Nat.zero_add] at hcursor
    rw [token_letter hc]
    show nodeStart _ (.scalar
      (String.ofList (Plain.read false 0 .none (c :: cs ++ ':' :: rest)).1) true)
      (Plain.read false 0 .none (c :: cs ++ ':' :: rest)).2 = _
    unfold behindWord
    rw [hread, ← hcursor]
    rfl
  have hsettle : (start (c :: cs ++ ':' :: rest)).settle = some (start (c :: cs ++ ':' :: rest)) :=
    settle_spaces (n := 0) hgap (hc.ne (by decide)) (by decide)
  exact run_of_token hsettle rfl htoken fuel

/-- **The first word is a key** if there is a colon behind it. It opens a block. -/
theorem run_key (hkey : IsKey key) (hrest : atBlank rest = true) (fuel : Nat) : ∃ t : Scan,
    run (fuel + 2) (.start (key ++ ':' :: rest)) = run fuel t ∧
      t.Awaits 0 [-1] [.value, .scalar (String.ofList key) true, .key, .blockMappingStart] rest := by
  have hcandidate : Candidate.at? (behindWord key (':' :: rest)).cursor
      (behindWord key (':' :: rest)).candidate = some (some ⟨0, false, 0, 0, 0⟩) :=
    if_pos ⟨rfl, hkey.length_le⟩
  have hsettle := settle_eq (s := behindWord key (':' :: rest)) rfl
    (by exact (by decide : some ':' ≠ some '\uFEFF')) rfl hcandidate
  rw [unwind_of_le (by exact (by omega : (-1 : Int) ≤ key.length))] at hsettle
  have hlength : key.length ≠ 0 := mt List.length_eq_zero_iff.mp hkey.ne_nil
  have htoken : (behindWord key (':' :: rest)).token ':' rest
      = (behindWord key (':' :: rest)).value := by
    unfold token
    simp [behindWord, hlength, hrest]
  refine ⟨_, (run_word hkey hrest _).trans (run_of_token hsettle rfl (htoken.trans rfl) fuel),
    rfl, rfl, rfl, rfl, rfl, ?_, nofun⟩
  exact Int.natCast_nonneg _

/-! ## Entries -/

/-- A text between quotes, behind a space. -/
theorem run_quoted {cs : List Char} (hcs : ∀ c ∈ cs, isBreak c = false ∧ c ≠ '\uFEFF')
    (hrest : rest.head? ≠ some '\'') (hindent : indent ≤ column) (fuel : Nat) :
    ∃ t : Scan, run (fuel + 1) (fresh ⟨' ' :: '\'' :: (Quoted.double cs ++ '\'' :: rest), index,
        line, column⟩ indent outer tokens count) = run fuel t ∧
      t.Awaits indent outer (.scalar (String.ofList cs) false :: tokens) rest := by
  have hquoted : ∀ c ∈ '\'' :: (Quoted.double cs ++ ['\'']), isBreak c = false ∧ c ≠ '\uFEFF' := by
    intro c hc
    rw [List.mem_cons, List.mem_append, List.mem_singleton, Quoted.mem_double] at hc
    rcases hc with rfl | hc | rfl
    · decide
    · exact hcs c hc
    · decide
  have hcursor := Cursor.advance_append hquoted rest (index + 1) line (column + 1)
  have hlength : ('\'' :: (Quoted.double cs ++ ['\''])).length = (Quoted.double cs).length + 2 := by
    rw [List.length_cons, List.length_append]
    rfl
  rw [List.cons_append, List.append_assoc, hlength] at hcursor
  have hsettle : (fresh ⟨' ' :: '\'' :: (Quoted.double cs ++ '\'' :: rest), index, line, column⟩
      indent outer tokens count).settle
        = some (fresh ⟨'\'' :: (Quoted.double cs ++ '\'' :: rest), index + 1, line, column + 1⟩
            indent outer tokens count) :=
    settle_spaces (n := 1) rfl (by decide) (by omega)
  have hdeep : indent ≠ (column + 1 : Nat) := by omega
  refine ⟨_, run_of_token hsettle rfl (token_quote (fun c hc => (hcs c hc).1) hrest
    (Nat.succ_ne_zero column) hdeep hcursor) fuel, rfl, rfl, rfl, rfl, rfl, ?_, ?_⟩
  · show indent ≤ ((column + 1 + _ : Nat) : Int)
    omega
  · rintro k hk
    cases hk
    exact ⟨rfl, Nat.le_refl _⟩

/-- The line end before an entry, and the entry. -/
def entry (cs : List Char) : List Char :=
  '\n' :: ' ' :: ' ' :: '-' :: ' ' :: '\'' :: (Quoted.double cs ++ ['\''])

theorem head?_entries (hrest : rest.head? ≠ some '\'') (items : List (List Char)) :
    (items.flatMap entry ++ rest).head? ≠ some '\'' := by
  cases items with
  | nil => exact hrest
  | cons cs items => exact (by decide : some '\n' ≠ some '\'')

namespace Awaits

/-- **An entry gives its text**, and it opens a block if it is the first one. -/
theorem run_entry {cs : List Char} (hs : s.Awaits indent outer tokens (entry cs ++ rest))
    (hindent : indent ≤ 2) (hcs : ∀ c ∈ cs, isBreak c = false ∧ c ≠ '\uFEFF')
    (hrest : rest.head? ≠ some '\'') (fuel : Nat) :
    ∃ t : Scan, run (fuel + 2) s = run fuel t ∧
      if indent < 2 then
        t.Awaits 2 (indent :: outer)
          (.scalar (String.ofList cs) false :: .blockEntry :: .blockSequenceStart :: tokens) rest
      else
        t.Awaits indent outer (.scalar (String.ofList cs) false :: .blockEntry :: tokens) rest := by
  have hline : s.cursor.rest = '\n' ::
      (List.replicate 2 ' ' ++ '-' :: ' ' :: '\'' :: (Quoted.double cs ++ '\'' :: rest)) := by
    rw [hs.rest_eq]
    simp [entry]
  have hsettle := settle_newLine hs.block hs.stale hline rfl
  rw [hs.indent_eq, hs.outer_eq, hs.tokens_eq, unwind_of_le (by exact hindent)] at hsettle
  rw [run_of_token hsettle rfl (token_dash (by decide)) (fuel + 1)]
  by_cases h : indent < 2
  · rw [if_pos (by exact h)]
    simp only [if_pos h]
    exact run_quoted hcs hrest (by decide) fuel
  · rw [if_neg (by exact h)]
    simp only [if_neg h]
    exact run_quoted hcs hrest (by omega) fuel

/-- **Any number of further entries give their texts.** -/
theorem run_entries {items : List (List Char)}
    (hs : s.Awaits 2 outer tokens (items.flatMap entry ++ rest))
    (hitems : ∀ cs ∈ items, ∀ c ∈ cs, isBreak c = false ∧ c ≠ '\uFEFF')
    (hrest : rest.head? ≠ some '\'') (fuel : Nat) :
    ∃ t : Scan, run (fuel + 2 * items.length) s = run fuel t ∧
      t.Awaits 2 outer ((Token.ofEntries items).reverse ++ tokens) rest := by
  induction items generalizing s tokens with
  | nil => exact ⟨s, rfl, hs⟩
  | cons cs items ih =>
    obtain ⟨hcs, hitems⟩ := List.forall_mem_cons.mp hitems
    rw [List.flatMap_cons, List.append_assoc] at hs
    obtain ⟨t, hrun, ht⟩ := hs.run_entry (Int.le_refl 2) hcs (head?_entries hrest items)
      (fuel + 2 * items.length)
    rw [if_neg (by decide)] at ht
    obtain ⟨u, hrun', hu⟩ := ih ht hitems
    refine ⟨u, hrun.trans hrun', ?_⟩
    rw [show Token.ofEntries (cs :: items)
      = [.blockEntry, .scalar (String.ofList cs) false] ++ Token.ofEntries items from rfl,
      List.reverse_append, List.append_assoc]
    exact hu

/-- On its own line a text may still be remembered, but not as one that has to
be a key. -/
theorem exists_candidate (hs : s.Awaits indent outer tokens rest) : ∃ candidate,
    Candidate.at? s.cursor s.candidate = some candidate ∧ candidate.any (·.required) = false := by
  cases hk : s.candidate with
  | none => exact ⟨none, rfl, rfl⟩
  | some k =>
    obtain ⟨hrequired, -⟩ := hs.stale k hk
    unfold Candidate.at?
    dsimp only
    rw [hrequired]
    split
    · exact ⟨_, rfl, hrequired⟩
    · exact ⟨_, rfl, rfl⟩

/-- Both blocks end with the text, whether its last line is ended or not. -/
theorem run_ending {ending : List Char} (hs : s.Awaits 2 [0, -1] tokens ending)
    (hending : ending = [] ∨ ending = ['\n']) (fuel : Nat) :
    run (fuel + 1) s = some (tokens.reverse ++ [.blockEnd, .blockEnd]) := by
  have hclosed : (.blockEnd :: .blockEnd :: tokens : List Token).reverse
      = tokens.reverse ++ [.blockEnd, .blockEnd] := by
    rw [List.reverse_cons, List.reverse_cons, List.append_assoc]
    rfl
  rw [← hclosed]
  rcases hending with rfl | rfl
  · -- the line goes on to the end of the text, so the last text can still be remembered
    obtain ⟨candidate, hcandidate, hfree⟩ := hs.exists_candidate
    have hgap : gap false s.cursor.rest = (0, false) := by
      rw [hs.rest_eq]
      rfl
    have hsettle := settle_eq hs.block (by rw [hs.rest_eq]; exact nofun) (by rw [hgap]; rfl)
      hcandidate
    rw [unwind_of_le (by exact hs.indent_eq ▸ hs.deep)] at hsettle
    refine run_of_end hsettle hs.rest_eq ?_ fuel
    unfold unwind inFlow
    rw [hs.block, hs.indent_eq, hs.outer_eq, hs.tokens_eq]
    show Option.map _ (if candidate.any (·.required) = true then none else some _) = _
    rw [hfree]
    rfl
  · have hsettle := settle_newLine (n := 0) hs.block hs.stale hs.rest_eq rfl
    rw [hs.indent_eq, hs.outer_eq, hs.tokens_eq] at hsettle
    exact run_of_end hsettle rfl rfl fuel

end Awaits

end Scan

/-! ## The whole text -/

namespace Token

open Scan

/-- The tokens of a key with a list of quoted texts under it. -/
def ofItems (key : List Char) (items : List (List Char)) : List Token :=
  .blockMappingStart :: .key :: .scalar (String.ofList key) true :: .value :: .blockSequenceStart ::
    (ofEntries items ++ [.blockEnd, .blockEnd])

theorem length_le_flatMap_entry (items : List (List Char)) :
    2 * items.length ≤ (items.flatMap entry).length := by
  induction items with
  | nil => exact Nat.le_refl 0
  | cons cs items ih =>
    have hentry : 2 ≤ (entry cs).length := by
      unfold entry
      simp
    rw [List.flatMap_cons, List.length_append, List.length_cons]
    omega

variable {key ending : List Char} {items : List (List Char)}

/-- The text is long enough for all its tokens: two for the key, two for each
entry, and a step for the end. -/
theorem exists_fuel (hkey : IsKey key) (items : List (List Char)) (ending : List Char) :
    ∃ fuel, (key ++ ':' :: (items.flatMap entry ++ ending)).length + 1
      = fuel + 1 + 2 * items.length + 2 := by
  have hlength := length_le_flatMap_entry items
  have hpos := List.length_pos_iff.mpr hkey.ne_nil
  have hle : 2 * items.length + 3 ≤ (key ++ ':' :: (items.flatMap entry ++ ending)).length + 1 := by
    rw [List.length_append, List.length_cons, List.length_append]
    omega
  obtain ⟨fuel, hfuel⟩ := Nat.exists_eq_add_of_le' hle
  exact ⟨fuel, by omega⟩

/-- There is nothing in the text but what is printable, in lines. -/
theorem isPrintable_or_of_mem (hkey : IsKey key) (hitems : ∀ cs ∈ items, ∀ c ∈ cs, IsPrintable c)
    (hending : ending = [] ∨ ending = ['\n']) {c : Char}
    (hc : c ∈ key ++ ':' :: (items.flatMap entry ++ ending)) : IsPrintable c ∨ c = '\n' := by
  rw [List.mem_append, List.mem_cons, List.mem_append, List.mem_flatMap] at hc
  rcases hc with hc | rfl | ⟨cs, hcs, hc⟩ | hc
  · exact .inl (hkey.letter c hc).isPrintable
  · exact .inl (by decide)
  · have hmargin : ∀ c ∈ ['\n', ' ', ' ', '-', ' ', '\''], IsPrintable c ∨ c = '\n' := by
      simp [IsPrintable]
    rw [show entry cs = ['\n', ' ', ' ', '-', ' ', '\''] ++ (Quoted.double cs ++ ['\'']) from rfl,
      List.mem_append, List.mem_append, Quoted.mem_double, List.mem_singleton] at hc
    rcases hc with hc | hc | rfl
    · exact hmargin c hc
    · exact .inl (hitems cs hcs c hc)
    · exact .inl (by decide)
  · rcases hending with rfl | rfl
    · cases hc
    · exact .inr (List.mem_singleton.mp hc)

/-- **A list of quoted texts comes to its tokens**, whatever printable
characters are in the texts. -/
theorem ofText?_items (hkey : IsKey key) (hitems : ∀ cs ∈ items, ∀ c ∈ cs, IsPrintable c)
    (hne : items ≠ []) (hending : ending = [] ∨ ending = ['\n']) :
    ofText? (key ++ ':' :: (items.flatMap entry ++ ending)) = some (ofItems key items) := by
  have hlines : ∀ c ∈ key ++ ':' :: (items.flatMap entry ++ ending), IsPrintable c ∨ c = '\n' :=
    fun c => isPrintable_or_of_mem hkey hitems hending
  have hallowed : (key ++ ':' :: (items.flatMap entry ++ ending)).all isAllowed = true :=
    List.all_eq_true.mpr fun c hc => (hlines c hc).elim (·.isAllowed) fun h => h ▸ by decide
  have hline : ∀ cs ∈ items, ∀ c ∈ cs, isBreak c = false ∧ c ≠ '\uFEFF' := fun cs hcs c hc =>
    ⟨(hitems cs hcs c hc).isBreak, (hitems cs hcs c hc).ne (by decide)⟩
  have hlast : ending.head? ≠ some '\'' := by
    rcases hending with rfl | rfl
    · exact nofun
    · exact (by decide : some '\n' ≠ some '\'')
  obtain ⟨first, items, rfl⟩ := List.exists_cons_of_ne_nil hne
  obtain ⟨hfirst, hothers⟩ := List.forall_mem_cons.mp hline
  obtain ⟨fuel, hfuel⟩ := exists_fuel hkey (first :: items) ending
  rw [List.length_cons, Nat.mul_add_one, ← Nat.add_assoc (fuel + 1)] at hfuel
  unfold ofText?
  rw [if_pos hallowed, normalize_eq_self hlines]
  show run _ _ = _
  rw [hfuel]
  have hblank : atBlank ((first :: items).flatMap entry ++ ending) = true := rfl
  obtain ⟨s, hs, hkeyed⟩ := run_key hkey hblank (fuel + 1 + 2 * items.length + 2)
  rw [List.flatMap_cons, List.append_assoc] at hkeyed
  obtain ⟨t, ht, hopened⟩ := hkeyed.run_entry (by decide) hfirst (head?_entries hlast items)
    (fuel + 1 + 2 * items.length)
  rw [if_pos (by decide)] at hopened
  obtain ⟨u, hu, hlisted⟩ := hopened.run_entries hothers hlast (fuel + 1)
  rw [hs, ht, hu, hlisted.run_ending hending]
  simp [ofItems, ofEntries]

end Token

end ChangeReview.Yaml
