import ChangeReview.Yaml.Node
import ChangeReview.Yaml.Scalar
import ChangeReview.Yaml.Token.Stream

/-!
# What a document says

A document says something only if every node of it has a value under its tag. The nodes form a graph
rather than a tree, since an alias can lead to any node with an anchor, an enclosing one included;
so each collection is looked at once, and known again by its number (`Document.check`).

The entries of a mapping are its own and those that are merged into it. The merged ones come first,
so that the entries of the mapping itself, and of several sources the earlier ones, have the last
word (`Document.entries?`). A key has to be a scalar.
-/

namespace ChangeReview.Yaml

namespace Node

/-- The number of nodes of the tree. -/
def size : Node → Nat
  | .scalar .. | .alias _ => 1
  | .sequence _ _ items => 1 + sizes items
  | .mapping _ _ entries => 1 + entrySizes entries
where
  /-- The number of nodes of several trees. -/
  sizes : List Node → Nat
    | [] => 0
    | n :: ns => size n + sizes ns
  /-- The number of nodes of several entries. -/
  entrySizes : List (Node × Node) → Nat
    | [] => 0
    | (k, v) :: es => size k + size v + entrySizes es

/-- The tag of a node that is no alias. -/
def tag : Node → Tag
  | .scalar t _ | .sequence _ t _ | .mapping _ t _ => t
  | .alias _ => .unknown

end Node

namespace Document

/-- The node that a node stands for: the one it repeats, or itself. -/
def deref (d : Document) : Node → Node
  | .alias anchor => (d.anchors.lookup anchor).getD (.alias anchor)
  | n => n

/-- More than the number of steps that lead through a document without meeting a collection twice.
-/
def fuel (d : Document) : Nat := d.anchors.foldl (fun n a => n + a.2.size) d.root.size + 2

/-- The text of a node that stands for a scalar: of a mapping, that of its first entry under the key
that marks one. -/
def textUpTo (d : Document) : Nat → Node → Option String
  | 0, _ => none
  | fuel + 1, n =>
    match d.deref n with
    | .scalar _ text => some text
    | .mapping _ _ entries =>
      match entries.find? fun e => (d.deref e.1).tag = .value with
      | some (_, v) => textUpTo d fuel v
      | none => none
    | _ => none

/-- The value of a node that stands for a scalar. A moment has to be written as one. -/
def scalar? (d : Document) (n : Node) : Option Scalar :=
  match d.deref n with
  | .scalar tag text => Scalar.ofText? tag text
  | .mapping _ tag _ =>
    if tag = .timestamp then none else (d.textUpTo d.fuel n).bind (Scalar.ofText? tag)
  | _ => none

/-- The value of a key; the mark of a value is a text there. -/
def key? (d : Document) (n : Node) : Option Scalar :=
  match d.deref n with
  | .scalar .value text => some (.text text)
  | n => d.scalar? n

/-- Whether a node is the key that merges. -/
def isMerge (d : Document) (n : Node) : Bool := (d.deref n).tag = .merge

/-- The entries of a mapping with those that are merged into it in front. A mapping that is being
put together has nothing more to give to itself. -/
def entriesUpTo (d : Document) : Nat → List Nat → Node → Option (List (Node × Node))
  | 0, _, _ => none
  | fuel + 1, busy, n =>
    match d.deref n with
    | .mapping id _ entries =>
      -- The mapping is reached again from one of its own sources.
      if id ∈ busy then some []
      else do
        let own := entries.filter fun e => !d.isMerge e.1
        let sources ← (entries.filter fun e => d.isMerge e.1).mapM fun e =>
          match d.deref e.2 with
          | .sequence _ _ items => do
            let parts ← items.mapM (entriesUpTo d fuel (id :: busy))
            return parts.reverse.flatten
          | source => entriesUpTo d fuel (id :: busy) source
        return sources.flatten ++ own
    | _ => none

/-- The entries of a mapping with those that are merged into it in front. -/
def entries? (d : Document) (n : Node) : Option (List (Node × Node)) := d.entriesUpTo d.fuel [] n

/-- The key and the value of a mapping of one entry. -/
def single? (d : Document) (n : Node) : Option (Node × Node) :=
  match d.deref n with
  | .mapping _ _ [entry] => some entry
  | _ => none

/-- Looks at a node and all that it holds, the collections in `seen` apart, and gives those that
have been seen then; fails where a node has no value. -/
def check (d : Document) : Nat → List Nat → Node → Option (List Nat)
  | 0, _, _ => none
  | fuel + 1, seen, n =>
    match d.deref n with
    | .scalar tag text => (Scalar.ofText? tag text).map fun _ => seen
    | .sequence id tag items =>
      if id ∈ seen then some seen
      else
        match tag with
        | .seq => items.foldlM (check d fuel) (id :: seen)
        | .omap | .pairs =>
          items.foldlM (fun seen item => do
            let (k, v) ← d.single? item
            check d fuel (← check d fuel seen k) v) (id :: seen)
        | _ => none
    | .mapping id tag _ =>
      if id ∈ seen then some seen
      else if tag = .map ∨ tag = .set then do
        (← d.entries? n).foldlM (fun seen (k, v) => do
          let _ ← d.key? k
          check d fuel seen v) (id :: seen)
      else (d.scalar? n).map fun _ => seen
    | .alias _ => none

/-- Whether every node of the document has a value. -/
def isValid (d : Document) : Bool := (d.check d.fuel [] d.root).isSome

/-- The document that a text writes, if every node of it has a value. -/
def parse? (text : List Char) : Option Document := do
  let d ← ofTokens? (← Token.ofText? text)
  if d.isValid then some d else none

end Document

end ChangeReview.Yaml
