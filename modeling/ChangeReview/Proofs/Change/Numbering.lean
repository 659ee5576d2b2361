import ChangeReview.Proofs.Change.Reading

/-!
# Numbers stay inside their hunk

Whatever text a diff is, well-formed or not, if it is read at all then every
hunk of it has on the target side as many lines as its header says. The reader
counts down from the two lengths in the header, and a hunk joins its file only
when both counts are used up; what is added to a hunk later, remarks and empty
lines, stands on neither side. So the added lines of a hunk have numbers that
go up, that lie in the stretch its header gives, and that are as many as the
stretch has lines, the context apart (`Hunk.isNumbered`).

The proof is about the hunks read so far, in order, and the one being read
(`Reader.State.hunks`, `Reader.State.current`). What a single line can do to
them is said once (`Reader.Effect`); the rest of the reader's state does not
matter.
-/

namespace ChangeReview

/-! ## The lines of one hunk -/

namespace Hunk

/-- How many lines of a hunk stand on the target side. -/
def targetCount (h : Hunk) : Nat := h.lines.toList.countP (·.mark.inTarget)

/-- How many lines of a hunk are context. -/
def contextCount (h : Hunk) : Nat := h.lines.toList.countP (·.mark = .context)

/-- Whether a line of the target side is among those that the header of a hunk
speaks of. -/
def Covers (h : Hunk) (n : Nat) : Prop :=
  h.targetStart ≤ n ∧ n < h.targetStart + h.targetLength

/-- Whether a hunk has as many lines on the target side as its header says. -/
def IsComplete (h : Hunk) : Prop := h.targetCount = h.targetLength

/-- A hunk without its lines, as its header gives it. -/
def opening (h : Hunk) : Hunk := { h with lines := #[] }

/-- **A run of numbers fits a hunk**: the numbers go up, the header speaks of
each, and they are all lines of the target side that are no context. -/
structure IsNumbered (h : Hunk) (run : List Nat) : Prop where
  increasing : run.Pairwise (· < ·)
  covered : ∀ n ∈ run, h.Covers n
  count : run.length + h.contextCount = h.targetLength

/-- A line counts on the target side where it stands there. -/
theorem targetCount_push (h : Hunk) (l : BodyLine) :
    (h.push l).targetCount = h.targetCount + if l.mark.inTarget then 1 else 0 := by
  show (h.lines.push l).toList.countP _ = _
  rw [Array.toList_push, List.countP_append, List.countP_singleton]
  rfl

@[simp] theorem opening_push (h : Hunk) (l : BodyLine) : (h.push l).opening = h.opening := rfl

/-- The number of the next line on the target side. -/
theorem next_eq (n : Nat) (m : Mark) :
    (if m.inTarget then n + 1 else n) = n + if m.inTarget then 1 else 0 := by
  split <;> rfl

/-- The numbers of added lines are among those counted through, from the first
on. -/
theorem addedFrom_covered (n : Nat) (ls : List BodyLine) :
    ∀ a ∈ addedFrom n ls, n ≤ a.number ∧ a.number < n + ls.countP (·.mark.inTarget) := by
  induction ls generalizing n with
  | nil => exact fun a ha => absurd ha List.not_mem_nil
  | cons l ls ih =>
    intro a ha
    have hrest := ih (n + if l.mark.inTarget then 1 else 0) a
    rw [addedFrom, next_eq] at ha
    rw [List.countP_cons]
    by_cases hadded : l.mark = .added
    · have hin : l.mark.inTarget = true := by rw [hadded]; rfl
      rw [if_pos hadded] at ha
      rw [if_pos hin] at ha hrest ⊢
      rcases List.mem_cons.mp ha with rfl | ha
      · exact ⟨Nat.le_refl n, show n < _ by omega⟩
      · have h := hrest ha
        omega
    · rw [if_neg hadded] at ha
      have h := hrest ha
      omega

/-- Added lines are numbered upwards. -/
theorem pairwise_addedFrom (n : Nat) (ls : List BodyLine) :
    ((addedFrom n ls).map AddedLine.number).Pairwise (· < ·) := by
  induction ls generalizing n with
  | nil => exact List.Pairwise.nil
  | cons l ls ih =>
    rw [addedFrom]
    by_cases hadded : l.mark = .added
    · have hin : l.mark.inTarget = true := by rw [hadded]; rfl
      rw [if_pos hadded, if_pos hin, List.map_cons, List.pairwise_cons]
      refine ⟨fun m hm => ?_, ih _⟩
      obtain ⟨a, ha, rfl⟩ := List.mem_map.mp hm
      exact (addedFrom_covered _ _ a ha).1
    · rw [if_neg hadded]
      exact ih _

/-- A line of the target side is added or is context. -/
theorem length_addedFrom (n : Nat) (ls : List BodyLine) :
    (addedFrom n ls).length + ls.countP (·.mark = .context)
      = ls.countP (·.mark.inTarget) := by
  have hmark : ∀ m : Mark, (if m = .added then 1 else 0) + (if m = .context then 1 else 0)
      = if m.inTarget then 1 else 0 := by
    rintro ⟨_⟩ <;> rfl
  induction ls generalizing n with
  | nil => rfl
  | cons l ls ih =>
    have hl := hmark l.mark
    have hlength (next : Nat) (a : AddedLine) :
        (if l.mark = .added then a :: addedFrom next ls else addedFrom next ls).length
          = (addedFrom next ls).length + if l.mark = .added then 1 else 0 := by
      split <;> rfl
    have hrest := ih (if l.mark.inTarget then n + 1 else n)
    rw [addedFrom, hlength, List.countP_cons, List.countP_cons, ← hl, ← hrest]
    simp only [decide_eq_true_eq]
    omega

/-- **A complete hunk numbers its added lines within its stretch.** -/
theorem isNumbered {h : Hunk} (hcomplete : h.IsComplete) :
    h.IsNumbered (h.added.map AddedLine.number) where
  increasing := pairwise_addedFrom _ _
  covered n hn := by
    obtain ⟨a, ha, rfl⟩ := List.mem_map.mp hn
    unfold Covers
    rw [← hcomplete]
    exact addedFrom_covered _ _ a ha
  count := by
    rw [List.length_map, ← hcomplete]
    exact length_addedFrom _ _

end Hunk

/-! ## What a line says of a hunk -/

namespace HeaderLine

/-- The header of a hunk gives a hunk without lines. -/
theorem opening_of_hunk? {l : List Char} {h : Hunk} (hl : hunk? l = some h) :
    h.opening = h ∧ h.targetCount = 0 := by
  unfold hunk? at hl
  simp only [Option.bind_eq_bind, Option.bind_eq_some_iff] at hl
  obtain ⟨_, -, ⟨_, _, _⟩, -, _, -, ⟨_, _, _⟩, -, _, -, hl⟩ := hl
  cases hl
  exact ⟨rfl, rfl⟩

/-- A line means a hunk only if it is the header of this hunk. -/
theorem hunk?_of_ofText {l : List Char} {h : Hunk} (hl : ofText l = .hunk h) :
    hunk? l = some h := by
  unfold ofText at hl
  split at hl
  · cases hl
  split at hl
  · cases hl
  split at hl
  · cases hl
  split at hl
  · cases hl
  split at hl
  · cases hl
  split at hl
  · next heq =>
    cases hl
    exact heq
  split at hl
  · cases hl
  split at hl
  · cases hl
  split at hl
  · cases hl
  split at hl <;> cases hl

end HeaderLine

namespace Reader

/-! ## The hunks read so far -/

/-- The hunks of some changes, one after the other. -/
def hunksOf (fs : Array FileChange) : List Hunk := fs.toList.flatMap (·.hunks.toList)

/-- The hunks of the file that is being read. -/
def Place.hunks (p : Place) : List Hunk := p.file?.elim [] (·.hunks.toList)

/-- The hunks that are complete. -/
def State.hunks (s : State) : List Hunk := hunksOf s.done ++ s.place.hunks

/-- The hunk that is being read, if any. -/
def State.current (s : State) : List Hunk :=
  match s.place with
  | .hunk _ h _ _ => [h]
  | _ => []

@[simp] theorem hunksOf_push (fs : Array FileChange) (f : FileChange) :
    hunksOf (fs.push f) = hunksOf fs ++ f.hunks.toList := by
  unfold hunksOf
  rw [Array.toList_push, List.flatMap_append, List.flatMap_singleton]

theorem hunksOf_closed (s : State) : hunksOf s.closed = s.hunks := by
  unfold State.closed State.hunks Place.hunks
  cases s.place.file? with
  | none => exact (List.append_nil _).symm
  | some f => exact hunksOf_push _ _

theorem current_of_isBetween {s : State} (hs : s.IsBetween) : s.current = [] := by
  unfold State.current
  split
  · next h => exact absurd h (hs _ _ _ _)
  · rfl

theorem current_of_place {s : State} {file : FileChange} {h : Hunk} {source target : Nat}
    (hs : s.place = .hunk file h source target) : s.current = [h] := by
  unfold State.current
  rw [hs]

/-- **What a line does to the hunks.** Between hunks it leaves them alone,
opens a new one, or adds to the last one a line that stands on neither side.
Inside a hunk it is a line of this hunk, and perhaps the last. -/
inductive Effect (l : List Char) (s s' : State) : Prop
  | keeps (hs : s.IsBetween) (hs' : s'.IsBetween) (same : s'.hunks = s.hunks)
  | opens {file : FileChange} {h : Hunk} (hs : s.IsBetween) (header : HeaderLine.hunk? l = some h)
      (hs' : s'.place = .hunk file h h.sourceLength h.targetLength) (same : s'.hunks = s.hunks)
  | appends {before : List Hunk} {h : Hunk} {b : BodyLine} (hs : s.IsBetween)
      (hs' : s'.IsBetween) (hb : b.mark.inTarget = false) (last : s.hunks = before ++ [h])
      (last' : s'.hunks = before ++ [h.push b])
  | reads {file : FileChange} {h : Hunk} {b : BodyLine} {source source' target : Nat}
      (hs : s.place = .hunk file h source (target + if b.mark.inTarget then 1 else 0))
      (hs' : s'.place = .hunk file (h.push b) source' target) (same : s'.hunks = s.hunks)
  | completes {file : FileChange} {h : Hunk} {b : BodyLine} {source : Nat}
      (hs : s.place = .hunk file h source (if b.mark.inTarget then 1 else 0))
      (hs' : s'.IsBetween) (joined : s'.hunks = s.hunks ++ [h.push b])

section Between

variable {s s' : State} {l : List Char}

/-- The hunks stay when the reader goes on to a place without any. -/
theorem hunks_leave (s : State) {place : Place} (h : place.hunks = []) :
    (s.leave place).hunks = s.hunks := by
  show hunksOf s.closed ++ place.hunks = _
  rw [h, List.append_nil, hunksOf_closed]

/-- A place with the same hunks is as good. -/
theorem Effect.of_place (hs : s.IsBetween) (hs' : s'.IsBetween) (hdone : s'.done = s.done)
    (hplace : s'.place.hunks = s.place.hunks) : Effect l s s' := by
  refine .keeps hs hs' ?_
  unfold State.hunks
  rw [hdone, hplace]

/-- A line that is kept for the file it may be about. -/
theorem effect_keep (hs : s.IsBetween) (line : String) : Effect l s (s.keep line) := by
  unfold State.keep
  split
  · next h => exact .of_place hs (by rintro _ _ _ _ ⟨⟩) rfl (by rw [h]; rfl)
  · next h => exact .of_place hs (by rintro _ _ _ _ ⟨⟩) rfl (by rw [h]; rfl)
  · exact .keeps hs (by rintro _ _ _ _ ⟨⟩) (hunks_leave s rfl)

/-- A line that says what kind of change it is. -/
theorem effect_amend (hs : s.IsBetween) {line : String} {error : String → ChangeError}
    {change : FileChange → FileChange} (hchange : ∀ f, (change f).hunks = f.hunks)
    (h : s.amend line error change = .ok s') : Effect l s s' := by
  unfold State.amend at h
  split at h
  · next file hplace =>
    cases h
    refine .of_place hs (by rintro _ _ _ _ ⟨⟩) rfl ?_
    rw [hplace]
    exact congrArg Array.toList (hchange file)
  · cases h

/-- A line that names the source side. -/
theorem effect_sourceName (hs : s.IsBetween) {text name : String} {stamp : Option String}
    (h : s.readHeader text (.sourceName name stamp) = .ok s') : Effect l s s' := by
  unfold State.readHeader at h
  dsimp only at h
  split at h
  · next file hplace =>
    cases h
    exact .of_place hs (by rintro _ _ _ _ ⟨⟩) rfl (by rw [hplace]; rfl)
  · next file hplace =>
    cases h
    exact .keeps hs (by rintro _ _ _ _ ⟨⟩) (hunks_leave s rfl)
  · cases h
    exact .of_place hs hs rfl rfl

/-- A line that names the target side. -/
theorem effect_readTarget (hs : s.IsBetween) {line name : String} {stamp : Option String}
    (h : s.readTarget line name stamp = .ok s') : Effect l s s' := by
  unfold State.readTarget at h
  dsimp only at h
  split at h
  · next file hplace =>
    split at h
    · cases h
      exact .of_place hs (by rintro _ _ _ _ ⟨⟩) rfl (by rw [hplace]; rfl)
    · cases h
  · next file hplace =>
    split at h
    · cases h
      exact .of_place hs (by rintro _ _ _ _ ⟨⟩) rfl (by rw [hplace]; rfl)
    · cases h
  · split at h
    · cases h
    · cases h
      refine .keeps hs (by rintro _ _ _ _ ⟨⟩) ?_
      show hunksOf s.closed ++ [] = _
      rw [List.append_nil, hunksOf_closed]

/-- A line that is added to the last hunk. -/
theorem effect_pushLine? (hs : s.IsBetween) {b : BodyLine} (hb : b.mark.inTarget = false)
    (h : s.pushLine? b = some s') : Effect l s s' := by
  unfold State.pushLine? FileChange.pushLine? at h
  split at h
  · next file hplace =>
    obtain ⟨_, hlast, rfl⟩ := Option.map_eq_some_iff.mp h
    obtain ⟨last, hback, rfl⟩ := Option.map_eq_some_iff.mp hlast
    obtain ⟨before, hbefore⟩ := Array.back?_eq_some_iff.mp hback
    have hhunks : s.hunks = (hunksOf s.done ++ before.toList) ++ [last] := by
      unfold State.hunks
      rw [hplace]
      simp [Place.hunks, Place.file?, hbefore]
    refine .appends hs (by rintro _ _ _ _ ⟨⟩) hb hhunks ?_
    unfold State.hunks
    simp [Place.hunks, Place.file?, hbefore]
  · cases h

/-- A line that says that two binary files differ. -/
theorem effect_readBinary (hs : s.IsBetween) (line source target : String) :
    Effect l s (s.readBinary line source target) := by
  refine .keeps hs (by rintro _ _ _ _ ⟨⟩) ?_
  unfold State.readBinary State.hunks
  cases hplace : s.place with
  | hunk file h source target => exact absurd hplace (hs _ _ _ _)
  | _ => simp [Place.hunks, Place.file?, FileChange.pushInfo, FileChange.ofNames]

/-- Between hunks. -/
theorem effect_readHeader (hs : s.IsBetween) {text : String}
    (h : s.readHeader text (HeaderLine.ofText l) = .ok s') : Effect l s s' := by
  cases hmeaning : HeaderLine.ofText l with
  | file source target =>
    rw [hmeaning] at h
    cases h
    exact .keeps hs (by rintro _ _ _ _ ⟨⟩) (hunks_leave s rfl)
  | newFile =>
    rw [hmeaning, State.readHeader] at h
    refine effect_amend hs ?_ h
    exact fun _ => rfl
  | deletedFile =>
    rw [hmeaning, State.readHeader] at h
    refine effect_amend hs ?_ h
    exact fun _ => rfl
  | sourceName name stamp =>
    rw [hmeaning] at h
    exact effect_sourceName hs h
  | targetName name stamp =>
    rw [hmeaning] at h
    exact effect_readTarget hs h
  | hunk g =>
    rw [hmeaning, State.readHeader] at h
    split at h
    · cases h
    · next file hfile =>
      cases h
      refine .opens hs (HeaderLine.hunk?_of_ofText hmeaning) rfl ?_
      unfold State.hunks Place.hunks
      rw [hfile]
      rfl
  | noLineEnd =>
    rw [hmeaning, State.readHeader] at h
    split at h
    · cases h
    · split at h
      · next hpush =>
        cases h
        exact effect_pushLine? hs rfl hpush
      · cases h
  | empty =>
    rw [hmeaning, State.readHeader] at h
    cases hpush : s.pushLine? ⟨.trailing, "\n"⟩ with
    | some s'' =>
      rw [hpush] at h
      cases h
      exact effect_pushLine? hs rfl hpush
    | none =>
      rw [hpush] at h
      cases h
      exact effect_keep hs text
  | binary source target =>
    rw [hmeaning] at h
    cases h
    exact effect_readBinary hs text source target
  | binaryPatch =>
    rw [hmeaning, State.readHeader] at h
    split at h
    · next file hplace =>
      cases h
      refine .keeps hs (by rintro _ _ _ _ ⟨⟩) ?_
      unfold State.hunks
      rw [hplace]
      simp [Place.hunks, Place.file?]
    · cases h
  | other =>
    rw [hmeaning] at h
    cases h
    exact effect_keep hs text

end Between

/-- Inside a hunk. -/
theorem effect_readBody {s s' : State} {file : FileChange} {h : Hunk} {source target : Nat}
    (hs : s.place = .hunk file h source target) {l : List Char}
    (hread : s.readBody file h source target l = .ok s') : Effect l s s' := by
  unfold State.readBody at hread
  split at hread
  · cases hread
  · next mark text hline =>
    split at hread
    · cases hread
    · next hroom =>
      have htarget : target
          = (if mark.inTarget then target - 1 else target) + if mark.inTarget then 1 else 0 := by
        cases hin : mark.inTarget with
        | true =>
          have hpos : target ≠ 0 := by
            rintro rfl
            simp [hin] at hroom
          simp
          omega
        | false => simp
      rw [htarget] at hs
      cases hread
      by_cases hdone : (if mark.inSource then source - 1 else source) = 0
          ∧ (if mark.inTarget then target - 1 else target) = 0
      · rw [if_pos hdone]
        rw [hdone.2, Nat.zero_add] at hs
        refine .completes (b := ⟨mark, String.ofList text⟩) hs (by rintro _ _ _ _ ⟨⟩) ?_
        unfold State.hunks
        rw [hs]
        simp [Place.hunks, Place.file?, FileChange.pushHunk]
      · rw [if_neg hdone]
        refine .reads (b := ⟨mark, String.ofList text⟩) hs rfl ?_
        unfold State.hunks
        rw [hs]
        rfl

/-- **A line that is read has one of these effects.** -/
theorem effect_step {s s' : State} {l : List Char} (h : step s l = .ok s') : Effect l s s' := by
  by_cases hs : s.IsBetween
  · rw [step_of_ne_hunk hs] at h
    exact effect_readHeader hs h
  · simp only [State.IsBetween, not_forall, not_not] at hs
    obtain ⟨file, g, source, target, hplace⟩ := hs
    rw [step_of_hunk hplace] at h
    exact effect_readBody hplace h

/-! ## Whole diffs -/

/-- **The hunks read from some lines are true to their headers**: they are
complete, the one being read still lacks what it is said to lack, and the
headers are lines that were read, in this order. -/
structure State.IsTrue (s : State) (ls : List (List Char)) : Prop where
  complete : ∀ h ∈ s.hunks, h.IsComplete
  lacking : ∀ file h source target, s.place = .hunk file h source target →
    h.targetCount + target = h.targetLength
  headers : ((s.hunks ++ s.current).map Hunk.opening).Sublist (ls.filterMap HeaderLine.hunk?)

theorem State.isTrue_init : State.init.IsTrue [] where
  complete _ h := absurd h List.not_mem_nil
  lacking := by rintro _ _ _ _ ⟨⟩
  headers := List.Sublist.refl []

/-- Lines that are no headers may be read in between. -/
theorem sublist_filterMap_concat {hs : List Hunk} {ls : List (List Char)}
    (h : hs.Sublist (ls.filterMap HeaderLine.hunk?)) (l : List Char) :
    hs.Sublist ((ls ++ [l]).filterMap HeaderLine.hunk?) := by
  rw [List.filterMap_append]
  exact h.trans (List.sublist_append_left _ _)

/-- **A line keeps the hunks true.** -/
theorem State.IsTrue.step {s s' : State} {ls : List (List Char)} {l : List Char}
    (hs : s.IsTrue ls) (h : Reader.step s l = .ok s') : s'.IsTrue (ls ++ [l]) := by
  have hheaders := sublist_filterMap_concat hs.headers l
  cases effect_step h with
  | keeps hbetween hbetween' same =>
    refine ⟨fun h hh => hs.complete h (same ▸ hh), fun _ _ _ _ h => absurd h (hbetween' _ _ _ _), ?_⟩
    rw [same, current_of_isBetween hbetween', ← current_of_isBetween hbetween]
    exact hheaders
  | @opens file g hbetween header hplace same =>
    obtain ⟨hopening, hcount⟩ := HeaderLine.opening_of_hunk? header
    refine ⟨fun h hh => hs.complete h (same ▸ hh), fun _ _ _ _ h => ?_, ?_⟩
    · rw [hplace] at h
      cases h
      rw [hcount, Nat.zero_add]
    · have hold := hs.headers
      rw [current_of_isBetween hbetween, List.append_nil] at hold
      rw [same, current_of_place hplace, List.map_append, List.filterMap_append]
      refine List.Sublist.append hold ?_
      simp [hopening, header]
  | @appends before g b hbetween hbetween' hb last last' =>
    refine ⟨?_, fun _ _ _ _ h => absurd h (hbetween' _ _ _ _), ?_⟩
    · have hold := hs.complete
      rw [last, List.forall_mem_append, List.forall_mem_singleton] at hold
      rw [last', List.forall_mem_append, List.forall_mem_singleton]
      refine ⟨hold.1, ?_⟩
      show (g.push b).targetCount = g.targetLength
      rw [Hunk.targetCount_push, hb, hold.2]
      rfl
    · rw [last, current_of_isBetween hbetween] at hheaders
      rw [last', current_of_isBetween hbetween']
      simpa using hheaders
  | @reads file g b source source' target hplace hplace' same =>
    refine ⟨fun h hh => hs.complete h (same ▸ hh), fun _ _ _ _ h => ?_, ?_⟩
    · have hlacking := hs.lacking _ _ _ _ hplace
      rw [hplace'] at h
      cases h
      rw [Hunk.targetCount_push]
      show _ = g.targetLength
      omega
    · rw [current_of_place hplace] at hheaders
      rw [same, current_of_place hplace']
      simpa using hheaders
  | @completes file g b source hplace hbetween' joined =>
    refine ⟨?_, fun _ _ _ _ h => absurd h (hbetween' _ _ _ _), ?_⟩
    · rw [joined, List.forall_mem_append, List.forall_mem_singleton]
      refine ⟨hs.complete, ?_⟩
      show (g.push b).targetCount = g.targetLength
      rw [Hunk.targetCount_push]
      exact hs.lacking _ _ _ _ hplace
    · rw [current_of_place hplace] at hheaders
      rw [joined, current_of_isBetween hbetween']
      simpa using hheaders

/-- Any number of lines do. -/
theorem State.IsTrue.foldlM {s s' : State} {ls ls' : List (List Char)} (hs : s.IsTrue ls)
    (h : ls'.foldlM Reader.step s = .ok s') : s'.IsTrue (ls ++ ls') := by
  induction ls' generalizing s ls with
  | nil =>
    cases h
    rwa [List.append_nil]
  | cons l ls' ih =>
    rw [List.foldlM_cons] at h
    cases hstep : Reader.step s l with
    | error e =>
      rw [hstep] at h
      cases h
    | ok s₁ =>
      rw [hstep] at h
      have hrest := ih (hs.step hstep) h
      rwa [List.append_assoc] at hrest

/-- At the end of the text the hunk being read, if there is one, is complete
too. -/
theorem State.IsTrue.finish {s : State} {ls : List (List Char)} (hs : s.IsTrue ls)
    {fs : Array FileChange} (h : Reader.finish s = .ok fs) :
    (∀ g ∈ hunksOf fs, g.IsComplete) ∧
      ((hunksOf fs).map Hunk.opening).Sublist (ls.filterMap HeaderLine.hunk?) := by
  have hheaders := hs.headers
  unfold Reader.finish at h
  split at h
  · next file g source target hplace =>
    have hlacking := hs.lacking _ _ _ _ hplace
    have hhunks : s.hunks = hunksOf s.done ++ file.hunks.toList := by
      unfold State.hunks
      rw [hplace]
      rfl
    split at h
    · next hdone =>
      cases h
      have hall : hunksOf (s.done.push (file.pushHunk g)) = s.hunks ++ [g] := by
        rw [hunksOf_push, hhunks]
        simp [FileChange.pushHunk]
      rw [current_of_place hplace] at hheaders
      rw [hdone.2] at hlacking
      rw [hall, List.forall_mem_append, List.forall_mem_singleton]
      exact ⟨⟨hs.complete, hlacking⟩, hheaders⟩
    · cases h
  · next hbetween =>
    cases h
    rw [hunksOf_closed]
    refine ⟨hs.complete, ?_⟩
    rwa [current_of_isBetween hbetween, List.append_nil] at hheaders

end Reader

/-- **The hunks of a diff that is read are true to their headers**, and these
are lines of the diff. -/
theorem FileChange.hunks_of_parse {diff : String} {fs : Array FileChange}
    (h : parse diff = .ok fs) :
    (∀ g ∈ Reader.hunksOf fs, g.IsComplete) ∧
      ((Reader.hunksOf fs).map Hunk.opening).Sublist
        ((Text.lines diff.toList).filterMap HeaderLine.hunk?) := by
  unfold parse at h
  cases hread : (Text.lines diff.toList).foldlM Reader.step Reader.State.init with
  | error e =>
    rw [hread] at h
    cases h
  | ok s =>
    rw [hread] at h
    exact (Reader.State.isTrue_init.foldlM hread).finish h

end ChangeReview
