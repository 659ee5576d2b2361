import ChangeReview.Proofs.Configuration
import ChangeReview.Proofs.Yaml.Tokens

/-!
# Writing patterns down

Any list of patterns can be written into the configuration file so that it is
read back as it is (`Config.load_written`): one pattern on a line, between
single quotes. It need not be known which texts would be taken for numbers or
for truth values, which characters mean something at the start of a value, or
whether blanks at an end count. Nothing is held against such a text.

Three readers have to agree on that. What the first one makes of the lines is
known already (`Yaml.Token.ofText?_items`). The second puts nodes together; it
goes down three levels, to the mapping, the list and the texts, and the fuel it
is given has to last for the list, which is where the induction is
(`Yaml.Reads.run_blockItems`). The third asks for values, and finds that quoted
texts are texts (`Yaml.Document.isValid_listing`).
-/

namespace ChangeReview

namespace Yaml

/-! ## Nodes -/

namespace Reads

variable {handles : Handles} {rest : List Token} {seen : List String}
  {anchors : List (String × Node)} {items : List Node} {entries : List (Node × Node)} {fuel : Nat}

theorem run_blockItems_cons (text : String) (rest : List Token) (fuel : Nat) :
    (blockItems handles (fuel + 4)).run
        ⟨.blockEntry :: .scalar text false :: rest, seen, anchors⟩
      = (blockItems handles (fuel + 3)).run ⟨rest, seen, anchors⟩ >>= fun (items, r) =>
          some (.scalar .str text :: items, r) :=
  rfl

/-- **Entries with quoted texts give these texts**, up to the end of the block. -/
theorem run_blockItems (texts : List (List Char)) (fuel : Nat) :
    (blockItems handles (fuel + texts.length + 3)).run
        ⟨Token.ofEntries texts ++ .blockEnd :: rest, seen, anchors⟩
      = some (texts.map (.scalar .str <| String.ofList ·), ⟨rest, seen, anchors⟩) := by
  induction texts with
  | nil => rfl
  | cons cs texts ih =>
    refine (run_blockItems_cons (String.ofList cs) (Token.ofEntries texts ++ .blockEnd :: rest)
      (fuel + texts.length)).trans ?_
    rw [ih]
    rfl

/-- A node that starts with a block, and not with an anchor or a tag, is what
the block comes to. -/
theorem run_node_of_content {loose : Bool} {t : Token} {n : Node} {r : Reading}
    (ht : t = .blockSequenceStart ∨ t = .blockMappingStart)
    (h : (content handles true loose (rest.length + 1) none false fuel).run
      ⟨t :: rest, seen, anchors⟩ = some (n, r)) :
    (node handles true loose (fuel + 1)).run ⟨t :: rest, seen, anchors⟩ = some (n, r) := by
  have hnode : (node handles true loose (fuel + 1)).run ⟨t :: rest, seen, anchors⟩
      = (content handles true loose (rest.length + 1) none false fuel).run
          ⟨t :: rest, seen, anchors⟩ >>= some := by
    rcases ht with rfl | rfl
    · rfl
    · rfl
  rw [hnode, h]
  rfl

/-- A block of entries is a list. -/
theorem run_sequence {r : Reading}
    (h : (blockItems handles fuel).run ⟨rest, seen, anchors⟩ = some (items, r)) :
    (node handles true true (fuel + 2)).run ⟨.blockSequenceStart :: rest, seen, anchors⟩
      = some (.sequence (rest.length + 1) .seq items, r) := by
  refine run_node_of_content (.inl rfl) ?_
  show ((blockItems handles fuel).run ⟨rest, seen, anchors⟩ >>= _) = _
  rw [h]
  rfl

/-- A key with a list behind it is the only entry of a mapping that ends there. -/
theorem run_blockEntries (key : String) {rest' : List Token}
    (h : (blockItems handles fuel).run ⟨rest, seen, anchors⟩
      = some (items, ⟨.blockEnd :: rest', seen, anchors⟩)) :
    (blockEntries handles (fuel + 4)).run
        ⟨.key :: .scalar key true :: .value :: .blockSequenceStart :: rest, seen, anchors⟩
      = some ([(.scalar (Tag.ofPlain key) key, .sequence (rest.length + 1) .seq items)],
          ⟨rest', seen, anchors⟩) := by
  show ((node handles true true (fuel + 2)).run ⟨.blockSequenceStart :: rest, seen, anchors⟩
    >>= _) = _
  rw [run_sequence h]
  rfl

/-- A block of keys and values is a mapping. -/
theorem run_mapping {r : Reading}
    (h : (blockEntries handles fuel).run ⟨rest, seen, anchors⟩ = some (entries, r)) :
    (node handles true false (fuel + 2)).run ⟨.blockMappingStart :: rest, seen, anchors⟩
      = some (.mapping (rest.length + 1) .map entries, r) := by
  refine run_node_of_content (.inr rfl) ?_
  show ((blockEntries handles fuel).run ⟨rest, seen, anchors⟩ >>= _) = _
  rw [h]
  rfl

end Reads

/-! ## Documents -/

namespace Document

/-- The list of texts in a document, with a number. -/
def texts (id : Nat) (items : List (List Char)) : Node :=
  .sequence id .seq (items.map (.scalar .str <| String.ofList ·))

/-- A document with one key and a list of texts under it, both collections with
their numbers. -/
def listing (id id' : Nat) (key : List Char) (items : List (List Char)) : Document :=
  ⟨.mapping id .map [(.scalar .str (String.ofList key), texts id' items)], []⟩

theorem length_ofEntries (items : List (List Char)) :
    (Token.ofEntries items).length = 2 * items.length := by
  unfold Token.ofEntries
  rw [List.length_flatMap]
  simp [Nat.mul_comm]

variable {id id' : Nat} {key : List Char} {items : List (List Char)}

/-- The tokens of a list come to the document, if the key is not taken for
anything but a text. -/
theorem exists_ofTokens?_ofItems (hkey : Tag.ofPlain (String.ofList key) = .str)
    (items : List (List Char)) :
    ∃ id id', ofTokens? (Token.ofItems key items) = some (listing id id' key items) := by
  have hitems : (Reads.blockItems Reads.defaultHandles (7 * items.length + 23 + items.length + 3)).run
      ⟨Token.ofEntries items ++ [.blockEnd, .blockEnd], [], []⟩
        = some (items.map (.scalar .str <| String.ofList ·), ⟨[.blockEnd], [], []⟩) :=
    Reads.run_blockItems items (7 * items.length + 23)
  have hmapping := Reads.run_mapping (Reads.run_blockEntries (String.ofList key) hitems)
  rw [hkey] at hmapping
  have hfuel : 4 * (Token.ofItems key items).length + 4
      = 7 * items.length + 23 + items.length + 3 + 4 + 2 := by
    simp only [Token.ofItems, List.length_cons, List.length_append, length_ofEntries,
      List.length_nil]
    omega
  unfold ofTokens?
  rw [if_neg (by simp [Token.ofItems])]
  show ∃ id id', ((Reads.node Reads.defaultHandles true false
    (4 * (Token.ofItems key items).length + 4)).run ⟨Token.ofItems key items, [], []⟩ >>= _) = _
  rw [hfuel]
  exact ⟨_, _, Option.bind_eq_some_iff.mpr ⟨_, hmapping, rfl⟩⟩

theorem exists_fuel_listing : ∃ n, (listing id id' key items).fuel = n + 3 := by
  unfold fuel listing
  rw [List.foldl_nil, Node.size, Node.size.entrySizes, Node.size, Node.size.entrySizes]
  exact ⟨(texts id' items).size + 1, by omega⟩

theorem entries?_listing : (listing id id' key items).entries? (listing id id' key items).root
    = some [(.scalar .str (String.ofList key), texts id' items)] := by
  obtain ⟨n, hn⟩ := @exists_fuel_listing id id' key items
  unfold entries?
  rw [hn]
  rfl

/-- Texts have their values. -/
theorem foldlM_check_texts (d : Document) (items : List (List Char)) (fuel : Nat)
    (seen : List Nat) :
    (items.map (Node.scalar .str <| String.ofList ·)).foldlM (d.check (fuel + 1)) seen
      = some seen := by
  induction items with
  | nil => rfl
  | cons cs items ih => exact ih

theorem isValid_listing : (listing id id' key items).isValid = true := by
  obtain ⟨n, hn⟩ := @exists_fuel_listing id id' key items
  obtain ⟨seen, hseen⟩ : ∃ seen,
      (listing id id' key items).check (n + 2) [id] (texts id' items) = some seen := by
    by_cases h : id' ∈ [id]
    · exact ⟨[id], if_pos h⟩
    · exact ⟨[id', id], (if_neg h).trans (foldlM_check_texts _ items n [id', id])⟩
  have hroot : (listing id id' key items).check (n + 3) [] (listing id id' key items).root
      = some seen := by
    show ((listing id id' key items).entries? (listing id id' key items).root >>= _) = _
    rw [entries?_listing]
    show ((listing id id' key items).check (n + 2) [id] (texts id' items) >>= pure) = _
    rw [hseen]
    rfl
  unfold isValid
  rw [hn, hroot]
  rfl

/-- **A list of quoted texts is one document**, whatever printable characters
are in the texts. -/
theorem exists_parse?_items {ending : List Char} (hkey : Scan.IsKey key)
    (hstr : Tag.ofPlain (String.ofList key) = .str)
    (hitems : ∀ cs ∈ items, ∀ c ∈ cs, IsPrintable c) (hne : items ≠ [])
    (hending : ending = [] ∨ ending = ['\n']) :
    ∃ id id', parse? (key ++ ':' :: (items.flatMap Scan.entry ++ ending))
      = some (listing id id' key items) := by
  obtain ⟨id, id', h⟩ := exists_ofTokens?_ofItems hstr items
  refine ⟨id, id', ?_⟩
  unfold parse?
  rw [Token.ofText?_items hkey hitems hne hending]
  show (ofTokens? (Token.ofItems key items) >>= _) = _
  rw [h]
  exact if_pos isValid_listing

end Document

end Yaml

/-! ## Configuration files -/

namespace Config

open Yaml

/-- The lines of a configuration file that lists patterns: the key, and each
pattern between single quotes, with those in it written twice. -/
def lines (ps : List String) : List String :=
  "exclude:" :: ps.map fun p => "  - '" ++ String.ofList (Quoted.double p.toList) ++ "'"

/-- Between lines there is what starts the next one. -/
theorem intercalate_newLine (first : List Char) (others : List (List Char)) :
    ['\n'].intercalate (first :: others) = first ++ others.flatMap ('\n' :: ·) := by
  induction others generalizing first with
  | nil => simp
  | cons second others ih =>
    rw [List.intercalate_cons_cons, ih]
    simp

theorem toList_intercalate_lines (ps : List String) : ("\n".intercalate (lines ps)).toList
    = excludeKey.toList ++ ':' :: (ps.map String.toList).flatMap Scan.entry := by
  have hentry (p : String) :
      '\n' :: ("  - '" ++ String.ofList (Quoted.double p.toList) ++ "'").toList
        = Scan.entry p.toList := by
    simp [Scan.entry]
  rw [String.toList_intercalate]
  show ['\n'].intercalate _ = _
  unfold lines
  rw [List.map_cons, intercalate_newLine]
  simp only [List.map_map, List.flatMap_map, Function.comp_def, hentry]
  rfl

theorem patterns_texts (ps : List String) : patterns (some (ps.map some)) = .ok ps := by
  have hgaps : gaps 0 (ps.map some) = [] := (gaps_eq_nil_iff 0).mpr (by simp)
  unfold patterns
  dsimp only
  rw [hgaps]
  simp

/-- A document that lists texts under the key for patterns gives them all. -/
theorem ofBytes_of_listing {bytes : List UInt8} {id id' : Nat} {ps : List String}
    (h : HasDocument bytes (Document.listing id id' excludeKey.toList (ps.map String.toList))) :
    ofBytes bytes = .ok ps := by
  have hkey : (Document.listing id id' excludeKey.toList (ps.map String.toList)).key?
      (.scalar .str (String.ofList excludeKey.toList)) = some (.text excludeKey) :=
    congrArg (fun key => some (Scalar.text key)) String.ofList_toList
  have hlists : Lists bytes (Document.listing id id' excludeKey.toList (ps.map String.toList))
      (Document.texts id' (ps.map String.toList)) :=
    ⟨_, h, ⟨⟨id, _, rfl⟩, Document.entries?_listing,
      List.forall_mem_singleton.mpr ⟨excludeKey, hkey⟩⟩, [], _, [], rfl, hkey, nofun⟩
  have hitems : items? (Document.listing id id' excludeKey.toList (ps.map String.toList))
      (Document.texts id' (ps.map String.toList)) = some (ps.map some) := by
    show some (((ps.map String.toList).map (Node.scalar .str <| String.ofList ·)).map _) = _
    rw [List.map_map, List.map_map]
    refine congrArg some (List.map_congr_left fun p _ => ?_)
    exact congrArg some String.ofList_toList
  rw [ofBytes_of_lists hlists, hitems, patterns_texts]
  rfl

/-- **Patterns are read back as they are written**, and there is nothing to
say about it. -/
theorem load_written {w : World} {path : Path} {ps : List String} {ending : String}
    (hne : ps ≠ []) (hps : ∀ p ∈ ps, ∀ c ∈ p.toList, ' ' ≤ c ∧ c ≤ '~')
    (hending : ending = "" ∨ ending = "\n")
    (hfile : w.file? path
      = some (Text.Utf8.encode ("\n".intercalate (lines ps) ++ ending).toList)) :
    load w path = ⟨.ok ps, [], []⟩ := by
  have hkey : Scan.IsKey excludeKey.toList :=
    ⟨by decide, by decide, by simp [excludeKey, IsLetter]⟩
  have hstr : Tag.ofPlain (String.ofList excludeKey.toList) = .str := by
    decide +kernel
  have hitems : ∀ cs ∈ ps.map String.toList, ∀ c ∈ cs, IsPrintable c :=
    List.forall_mem_map.mpr hps
  have hlast : ending.toList = [] ∨ ending.toList = ['\n'] := by
    rcases hending with rfl | rfl
    · exact .inl rfl
    · exact .inr rfl
  have htext : ("\n".intercalate (lines ps) ++ ending).toList = excludeKey.toList ++
      ':' :: ((ps.map String.toList).flatMap Scan.entry ++ ending.toList) := by
    rw [String.toList_append, toList_intercalate_lines]
    simp
  have hfeed : '\r' ∉ ("\n".intercalate (lines ps) ++ ending).toList := by
    intro h
    rw [htext] at h
    exact absurd (Token.isPrintable_or_of_mem hkey hitems hlast h) (by decide)
  obtain ⟨id, id', hparse⟩ := Document.exists_parse?_items hkey hstr hitems
    (mt List.map_eq_nil_iff.mp hne) hlast
  rw [← htext] at hparse
  have hdocument : HasDocument (Text.Utf8.encode ("\n".intercalate (lines ps) ++ ending).toList)
      (Document.listing id id' excludeKey.toList (ps.map String.toList)) :=
    ⟨_, Text.Utf8.decode_encode _, by rwa [Text.unifyBreaks_eq_self hfeed]⟩
  exact load_of_ofBytes hfile (ofBytes_of_listing hdocument)

/-- Nothing, blanks at both ends, a quote, a comment, an alias and a null value
are patterns like all others. -/
theorem load_awkward :
    let w := World.withConfig
      "exclude:\n  - ''\n  - ' it''s '\n  - '# [a: *b, \\'\n  - 'null'\n"
    load w (Settings.plain.configPath w) = ⟨.ok ["", " it's ", "# [a: *b, \\", "null"], [], []⟩ := by
  have htext : "\n".intercalate (lines ["", " it's ", "# [a: *b, \\", "null"]) ++ "\n"
      = "exclude:\n  - ''\n  - ' it''s '\n  - '# [a: *b, \\'\n  - 'null'\n" := by
    decide +kernel
  rw [← htext]
  exact load_written (by decide) (by simp) (.inr rfl) (World.file?_withConfig _)

end Config

end ChangeReview
