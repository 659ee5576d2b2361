/-!
# Paths

A path is a sequence of names, hung on a root or on nothing. Reading one drops empty names and
single dots and keeps double dots, so two spellings of a path are the same value exactly when they
name the same place without following links. Two slashes in front are a root of their own; one
slash, or three and more, are the ordinary root.
-/

namespace ChangeReview

/-- The pieces of a text between the slashes in it; one more than there are slashes. -/
def Path.pieces : List Char → List (List Char)
  | [] => [[]]
  | c :: rest =>
    if c = '/' then [] :: Path.pieces rest
    else
      match Path.pieces rest with
      | [] => [[c]]
      | piece :: more => (c :: piece) :: more

/-- A name that a path keeps: not empty, not a single dot, and without a slash. -/
def Path.IsName (n : String) : Prop := n ≠ "" ∧ n ≠ "." ∧ '/' ∉ n.toList

instance (n : String) : Decidable (Path.IsName n) := by unfold Path.IsName; infer_instance

/-- What the names of a path hang on. -/
inductive Path.Root where
  | relative
  | slash
  | doubleSlash
  deriving DecidableEq, Repr

/-- A path: its root, and its names from there on. -/
structure Path where
  root : Path.Root
  names : List String
  proper : ∀ n ∈ names, Path.IsName n
  deriving DecidableEq, Repr

namespace Path

/-- The text a root is written as. -/
def Root.text : Root → String
  | .relative => ""
  | .slash => "/"
  | .doubleSlash => "//"

/-- The root that a text starts with. -/
def Root.ofText : List Char → Root
  | '/' :: '/' :: '/' :: _ => .slash
  | '/' :: '/' :: _ => .doubleSlash
  | '/' :: _ => .slash
  | _ => .relative

/-- The empty relative path: here. -/
def here : Path := ⟨.relative, [], by simp⟩

/-- The path that a text spells. -/
def ofString (s : String) : Path where
  root := .ofText s.toList
  names := ((pieces s.toList).map String.ofList).filter (fun n => decide (IsName n))
  proper := by simp

/-- The text of a path: a single dot for the empty relative one. -/
def text (p : Path) : String :=
  if p.root = .relative ∧ p.names = [] then "."
  else p.root.text ++ "/".intercalate p.names

instance : ToString Path := ⟨text⟩

/-- Whether a path hangs on a root. -/
def isAbsolute (p : Path) : Bool := p.root != .relative

/-- The path `q` as seen from `p`: itself when it is absolute. -/
def join (p q : Path) : Path :=
  if q.isAbsolute then q
  else ⟨p.root, p.names ++ q.names, by
    simpa [or_imp, forall_and] using And.intro p.proper q.proper⟩

instance : HDiv Path Path Path := ⟨join⟩

/-- The last name, or the empty text where there is none. -/
def name (p : Path) : String := p.names.getLast?.getD ""

/-- The ending of a file name: from its last dot on, when something stands on either side. -/
def suffixOf (n : List Char) : List Char :=
  match n.reverse.span (· != '.') with
  | ([], _) => []
  | (_, []) => []
  | (_, [_]) => []
  | (ending, dot :: _ :: _) => dot :: ending.reverse

/-- The ending of the last name of a path. -/
def suffix (p : Path) : String := String.ofList (suffixOf p.name.toList)

/-- The path from `base` to `p`, where the names of `base` are the first ones of `p` and both hang
on the same root. -/
def relativeTo? (p base : Path) : Option Path :=
  if p.root = base.root ∧ base.names <+: p.names then
    some ⟨.relative, p.names.drop base.names.length, fun n h => p.proper n (List.mem_of_mem_drop h)⟩
  else none

/-- The names left when every double dot takes the name before it away; `seen` holds the names so
far, the last one first. At a root there is nothing to take away. -/
def collapse (absolute : Bool) : List String → List String → List String
  | seen, [] => seen.reverse
  | seen, n :: rest =>
    if n = ".." then
      match seen with
      | [] => collapse absolute (if absolute then [] else [n]) rest
      | m :: before =>
        if m = ".." then collapse absolute (n :: m :: before) rest
        else collapse absolute before rest
    else collapse absolute (n :: seen) rest

theorem mem_of_mem_collapse {absolute : Bool} {seen rest : List String} {n : String}
    (h : n ∈ collapse absolute seen rest) : n ∈ seen ∨ n ∈ rest := by
  fun_induction collapse absolute seen rest <;> grind

/-- The path with its double dots carried out on the names alone. -/
def normalize (p : Path) : Path where
  root := p.root
  names := collapse p.isAbsolute [] p.names
  proper n h := p.proper n (by simpa using mem_of_mem_collapse h)

/-- Whether `p` lies properly above `q`. -/
def isAbove (p q : Path) : Bool :=
  p.root = q.root && p.names.isPrefixOf q.names && p.names.length < q.names.length

end Path

end ChangeReview
