/-!
# Tokens

What a document is made of below its nodes. Most tokens stand for something in the text; the starts
of block collections, their ends, and most keys are only known by where the text stands.
-/

namespace ChangeReview.Yaml

/-- An instruction to the reader of a document, on a line of its own. -/
inductive Directive where
  /-- The version of the language, of which the first number matters. -/
  | version (major : Nat)
  /-- What a handle at the start of tags stands for. -/
  | handle (handle meaning : String)
  /-- Any other, which means nothing. -/
  | other
  deriving DecidableEq, Repr

/-- A token of a document. -/
inductive Token where
  | directive (d : Directive)
  | documentStart
  | documentEnd
  | blockSequenceStart
  | blockMappingStart
  | blockEnd
  | flowSequenceStart
  | flowSequenceEnd
  | flowMappingStart
  | flowMappingEnd
  | blockEntry
  | flowEntry
  | key
  | value
  | alias (name : String)
  | anchor (name : String)
  /-- A tag as it is written: a handle, unless it is an address in full, and the rest. -/
  | tag (handle : Option String) (rest : String)
  /-- A text, and whether it is written without quotes and on the lines of the document. -/
  | scalar (text : String) (plain : Bool)
  deriving DecidableEq, Repr

end ChangeReview.Yaml
