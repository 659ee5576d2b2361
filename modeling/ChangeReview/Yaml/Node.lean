import ChangeReview.Yaml.Tag
import ChangeReview.Yaml.Token

/-!
# Nodes

The nodes of a document, as its tokens give them. A node that repeats another by its anchor is kept
as such (`Node.alias`), so a document with aliases, even one that contains itself, is a finite tree
with a table of the nodes that have anchors (`Document`). A collection carries a number of its own,
by which it can be known again.

Reading nodes is a descent over the tokens. Its state is what is left of them, the anchors seen, and
the anchored nodes that are complete. A node may repeat only one whose anchor came before it, and
each anchor can be set once.
-/

namespace ChangeReview.Yaml

/-- A node of a document. -/
inductive Node where
  | scalar (tag : Tag) (text : String)
  | sequence (id : Nat) (tag : Tag) (items : List Node)
  | mapping (id : Nat) (tag : Tag) (entries : List (Node × Node))
  | alias (anchor : String)
  deriving Inhabited, Repr

/-- A document: the node at its root, and the nodes with anchors. -/
structure Document where
  root : Node
  anchors : List (String × Node)

/-- The node that stands where nothing is written. -/
def Node.empty : Node := .scalar .null ""

/-- What the reading of nodes has left and has seen. -/
structure Reading where
  tokens : List Token
  /-- The anchors that were set. -/
  seen : List String
  /-- The nodes with anchors that are complete. -/
  anchors : List (String × Node)

/-- A step of the reading of nodes, which may fail. -/
abbrev Reads := StateT Reading Option

namespace Reads

/-- The next token. -/
def peek : Reads (Option Token) := do return (← get).tokens.head?

/-- Passes over the next token. -/
def drop : Reads Unit := modify fun r => { r with tokens := r.tokens.tail }

/-- Whether the next token is one of those given. -/
def next (ts : List Token) : Reads Bool := do return (← peek).any (ts.contains ·)

/-- Passes over the next token, which has to be the one given. -/
def expect (t : Token) : Reads Unit := do
  if ← next [t] then drop else failure

/-- The handles of tags, with what they stand for. -/
abbrev Handles := List (String × String)

/-- The handles that stand for something without a directive. -/
def defaultHandles : Handles := [("!", "!"), ("!!", Tag.base)]

/-- The address that a tag spells. -/
def address (handles : Handles) (handle : Option String) (rest : String) : Reads String :=
  match handle with
  | none => return rest
  | some h =>
    match handles.lookup h with
    | some meaning => return meaning ++ rest
    | none => failure

/-- The anchor and the address of the tag in front of a node, in either order. -/
def properties (handles : Handles) : Reads (Option String × Option String) := do
  let anchor? : Reads (Option String) := do
    match ← peek with
    | some (.anchor name) => drop; return some name
    | _ => return none
  let tag? : Reads (Option String) := do
    match ← peek with
    | some (.tag handle rest) => drop; return some (← address handles handle rest)
    | _ => return none
  match ← anchor? with
  | some name => return (some name, ← tag?)
  | none =>
    match ← tag? with
    | some address => return (← anchor?, some address)
    | none => return (none, none)

/-- Sets an anchor. -/
def setAnchor (name : String) : Reads Unit := do
  let r ← get
  if r.seen.contains name then failure else set { r with seen := name :: r.seen }

/-- Whether an address leaves the kind of a node to its shape. -/
def isOpen (address : Option String) : Bool := address.all (· == "!")

/-- The tag of a scalar. -/
def scalarTag (address : Option String) (text : String) (plain : Bool) : Tag :=
  match address with
  | none => if plain then Tag.ofPlain text else .str
  | some a => if a = "!" then Tag.ofPlain text else Tag.ofAddress a

/-- The tag of a collection, which is `tag` unless an address is given. -/
def collectionTag (address : Option String) (tag : Tag) : Tag :=
  if isOpen address then tag else Tag.ofAddress (address.getD "")

mutual

/-- A node. Outside flow collections (`block`) block collections are nodes too, and as a key or a
value of a block mapping (`loose`) entries that are not indented. -/
def node (handles : Handles) (block loose : Bool) : Nat → Reads Node
  | 0 => failure
  | fuel + 1 => do
    match ← peek with
    | some (.alias name) =>
      drop
      if (← get).seen.contains name then return .alias name else failure
    | _ =>
      let id := (← get).tokens.length
      let (anchor, address) ← properties handles
      if let some name := anchor then setAnchor name
      let n ← content handles block loose id address (anchor.isSome || address.isSome) fuel
      if let some name := anchor then
        modify fun r => { r with anchors := (name, n) :: r.anchors }
      return n

/-- What stands behind the anchor and the tag of a node; it may be nothing if there is one of them
(`marked`). -/
def content (handles : Handles) (block loose : Bool) (id : Nat) (address : Option String)
    (marked : Bool) : Nat → Reads Node
  | 0 => failure
  | fuel + 1 => do
    match ← peek with
    | some .blockEntry =>
      if loose then
        return .sequence id (collectionTag address .seq) (← looseItems handles fuel)
      else if marked then
        return .scalar (scalarTag address "" (isOpen address)) ""
      else failure
    | some (.scalar text plain) =>
      drop
      return .scalar (scalarTag address text plain) text
    | some .flowSequenceStart =>
      drop
      return .sequence id (collectionTag address .seq) (← flowItems handles true fuel)
    | some .flowMappingStart =>
      drop
      return .mapping id (collectionTag address .map) (← flowEntries handles true fuel)
    | t =>
      if block ∧ t = some .blockSequenceStart then
        drop
        return .sequence id (collectionTag address .seq) (← blockItems handles fuel)
      else if block ∧ t = some .blockMappingStart then
        drop
        return .mapping id (collectionTag address .map) (← blockEntries handles fuel)
      else if marked then
        return .scalar (scalarTag address "" (isOpen address)) ""
      else failure

/-- A node, or the empty one where one of the given tokens, or none at all, comes next. -/
def nodeUnless (handles : Handles) (block loose : Bool) (ts : List Token) : Nat → Reads Node
  | 0 => failure
  | fuel + 1 => do
    if ← next ts then return .empty else node handles block loose fuel

/-- The items of a block sequence and its end. -/
def blockItems (handles : Handles) : Nat → Reads (List Node)
  | 0 => failure
  | fuel + 1 => do
    if ← next [.blockEntry] then
      drop
      let n ← nodeUnless handles true false [.blockEntry, .blockEnd] fuel
      return n :: (← blockItems handles fuel)
    else
      expect .blockEnd
      return []

/-- Entries that are not indented, as long as they go on. -/
def looseItems (handles : Handles) : Nat → Reads (List Node)
  | 0 => failure
  | fuel + 1 => do
    if ← next [.blockEntry] then
      drop
      let n ← nodeUnless handles true false [.blockEntry, .key, .value, .blockEnd] fuel
      return n :: (← looseItems handles fuel)
    else return []

/-- The entries of a block mapping and its end. -/
def blockEntries (handles : Handles) : Nat → Reads (List (Node × Node))
  | 0 => failure
  | fuel + 1 => do
    if ← next [.key] then
      drop
      let k ← nodeUnless handles true true [.key, .value, .blockEnd] fuel
      let v ←
        if ← next [.value] then
          drop
          nodeUnless handles true true [.key, .value, .blockEnd] fuel
        else pure .empty
      return (k, v) :: (← blockEntries handles fuel)
    else
      expect .blockEnd
      return []

/-- A key of a flow collection and its value, either of which may be left out; `stop` ends the
collection. -/
def flowPair (handles : Handles) (stop : Token) : Nat → Reads (Node × Node)
  | 0 => failure
  | fuel + 1 => do
    let k ← nodeUnless handles false false [.value, .flowEntry, stop] fuel
    let v ←
      if ← next [.value] then
        drop
        nodeUnless handles false false [.flowEntry, stop] fuel
      else pure .empty
    return (k, v)

/-- The items of a flow sequence and its end; a comma stands before each but the first. A key makes
a mapping of one entry. -/
def flowItems (handles : Handles) (first : Bool) : Nat → Reads (List Node)
  | 0 => failure
  | fuel + 1 => do
    if ← next [.flowSequenceEnd] then
      drop
      return []
    else
      if !first then expect .flowEntry
      match ← peek with
      | some .flowSequenceEnd =>
        drop
        return []
      | some .key =>
        let id := (← get).tokens.length
        drop
        let entry ← flowPair handles .flowSequenceEnd fuel
        return .mapping id .map [entry] :: (← flowItems handles false fuel)
      | _ =>
        let n ← node handles false false fuel
        return n :: (← flowItems handles false fuel)

/-- The entries of a flow mapping and its end; a comma stands before each but the first. -/
def flowEntries (handles : Handles) (first : Bool) : Nat → Reads (List (Node × Node))
  | 0 => failure
  | fuel + 1 => do
    if ← next [.flowMappingEnd] then
      drop
      return []
    else
      if !first then expect .flowEntry
      match ← peek with
      | some .flowMappingEnd =>
        drop
        return []
      | some .key =>
        drop
        let entry ← flowPair handles .flowMappingEnd fuel
        return entry :: (← flowEntries handles false fuel)
      | _ =>
        let k ← node handles false false fuel
        return (k, .empty) :: (← flowEntries handles false fuel)

end

/-- The handles that directives declare, each once. A version may be given once too, and has to be
one of the first language. -/
def directives (versioned : Bool) (declared : Handles) : List Directive → Option Handles
  | [] => some declared
  | .version major :: ds =>
    if versioned ∨ major ≠ 1 then none else directives true declared ds
  | .handle h meaning :: ds =>
    if declared.any (·.1 == h) then none else directives versioned ((h, meaning) :: declared) ds
  | .other :: ds => directives versioned declared ds

/-- The directive that a token is. -/
def directive? : Token → Option Directive
  | .directive d => some d
  | _ => none

/-- The tokens of a document behind its directives and its start mark, and the handles it can use. A
document with directives has to have the mark. -/
def heading (ts : List Token) : Option (Handles × Bool × List Token) :=
  let ds := (ts.takeWhile fun t => (directive? t).isSome).filterMap directive?
  match ts.dropWhile fun t => (directive? t).isSome with
  | .documentStart :: rest => do
    return ((← directives false [] ds) ++ defaultHandles, true, rest)
  | rest => if ds = [] then some (defaultHandles, false, rest) else none

end Reads

/-- The document that tokens write; none of them, no document, which is as good as an empty one.
There may be no second document. -/
def Document.ofTokens? (ts : List Token) : Option Document :=
  if ts = [] then some ⟨.empty, []⟩
  else do
    let (handles, marked, rest) ← Reads.heading ts
    let bare := marked && rest.head?.all fun t =>
      t ∈ [.documentStart, .documentEnd] || (Reads.directive? t).isSome
    let fuel := 4 * rest.length + 4
    let (root, r) ←
      if bare then some (Node.empty, Reading.mk rest [] [])
      else (Reads.node handles true false fuel).run ⟨rest, [], []⟩
    if (r.tokens.dropWhile (· == .documentEnd)) = [] then some ⟨root, r.anchors⟩ else none

end ChangeReview.Yaml
