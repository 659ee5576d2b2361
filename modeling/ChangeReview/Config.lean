import ChangeReview.Outcome
import ChangeReview.Yaml.Document

/-!
# The repository's configuration

A repository can say which files are not to be reviewed: a YAML document whose mapping lists
patterns under `exclude`. A document that says nothing at all excludes nothing. One that says
something else, or a list that holds anything but text, is refused as a whole, so that no pattern of
a half-right list takes effect; a run then goes on as if there were no configuration, and says so in
its log.
-/

namespace ChangeReview

/-- What can be wrong with a list of patterns. -/
inductive ExcludeError where
  | notList
  /-- Some items are no text; their positions. -/
  | notText (positions : List Nat)
  deriving DecidableEq, Repr

/-- What can be wrong with a configuration. -/
inductive ConfigError where
  | unreadable (e : ReadError)
  | notYaml
  | notMapping
  | exclude (e : ExcludeError)
  deriving DecidableEq, Repr

/-- The wording of what is wrong with a configuration. -/
def ConfigError.message : ConfigError → String
  | .unreadable e => e.message
  | .notYaml => "not a YAML document"
  | .notMapping => "not a mapping with text for keys"
  | .exclude .notList => "exclude is not a list"
  | .exclude (.notText _) => "exclude holds something that is not text"

namespace Config

/-- The key that patterns are listed under. -/
def excludeKey : String := "exclude"

/-- The positions from `i` on at which a list holds no text. -/
def gaps (i : Nat) : List (Option String) → List Nat
  | [] => []
  | some _ :: rest => gaps (i + 1) rest
  | none :: rest => i :: gaps (i + 1) rest

/-- The patterns that a value lists, where it is a list at all; its items are texts as far as they
are known. -/
def patterns (items : Option (List (Option String))) : Except ExcludeError (List String) :=
  match items with
  | none => .error .notList
  | some items =>
    match gaps 0 items with
    | [] => .ok (items.filterMap id)
    | positions => .error (.notText positions)

/-- The text that a scalar can be taken for: bytes that write a text can too. -/
def text? : Yaml.Scalar → Option String
  | .text s => some s
  | .bytes bs => (Text.Utf8.decode bs).toOption.map String.ofList
  | _ => none

/-- The items of a node that can be taken for a list: a set is one too, and the pairs of a list of
pairs are no text. -/
def items? (d : Yaml.Document) (n : Yaml.Node) : Option (List (Option String)) :=
  match d.deref n with
  | .sequence _ .seq items => some (items.map fun n => (d.scalar? n).bind text?)
  | .sequence _ _ items => some (items.map fun _ => none)
  | .mapping _ .set _ =>
    (d.entries? n).map fun entries => ((entries.filterMap fun e => d.key? e.1).eraseDups).map text?
  | _ => none

/-- The last value under the key for patterns, where all keys are texts. -/
def lastExclude (d : Yaml.Document) :
    List (Yaml.Node × Yaml.Node) → Except ConfigError (Option Yaml.Node)
  | [] => .ok none
  | (k, v) :: rest =>
    match d.key? k with
    | some (.text key) =>
      (lastExclude d rest).map fun later => later.or (if key = excludeKey then some v else none)
    | _ => .error .notMapping

/-- The patterns that entries give. -/
def ofEntries (d : Yaml.Document) (entries : List (Yaml.Node × Yaml.Node)) :
    Except ConfigError (List String) := do
  match ← lastExclude d entries with
  | none => return []
  | some v => (patterns (items? d v)).mapError .exclude

/-- The patterns that a document gives; one that says nothing gives none. -/
def ofDocument (d : Yaml.Document) : Except ConfigError (List String) :=
  match d.root with
  | .mapping _ .map _ => ofEntries d ((d.entries? d.root).getD [])
  | .mapping _ .set _ => if (d.entries? d.root).any List.isEmpty then .ok [] else .error .notMapping
  | .sequence _ _ items => if items.isEmpty then .ok [] else .error .notMapping
  | n => if (d.scalar? n).any Yaml.Scalar.isFalsy then .ok [] else .error .notMapping

/-- The patterns that a text gives. -/
def parse (text : String) : Except ConfigError (List String) :=
  match Yaml.Document.parse? text.toList with
  | none => .error .notYaml
  | some d => ofDocument d

/-- The patterns that the bytes of a file give. -/
def ofBytes (bytes : List UInt8) : Except ConfigError (List String) := do
  parse (← (World.decodeText bytes).mapError .unreadable)

/-- A configuration file that is of no use: it gives no patterns, and the reason goes to the log. -/
def setAside (path : Path) (e : ConfigError) : Outcome (List String) := do
  Outcome.emit (.badConfig path.name e.message)
  return []

/-- The patterns that the file at a path gives. No file gives none, and so does one that is of no
use. Only when it cannot be told whether there is a file at all, this is a failure. -/
def load (w : World) (path : Path) : Outcome (List String) :=
  match w.entry? path with
  | some (.file bytes) =>
    match ofBytes bytes with
    | .ok excludes => pure excludes
    | .error e => setAside path e
  | some (.locked reason) => setAside path (.unreadable (.refused reason))
  | some (.hidden reason) => Outcome.ofExcept (.error (.read (.refused reason)))
  | some .directory | none => pure []

end Config

end ChangeReview
