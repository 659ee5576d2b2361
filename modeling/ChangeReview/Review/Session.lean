import ChangeReview.Review.Run

/-!
# Review sessions

A session holds a list of patches that grows, patterns that are added to, a current directory that
moves, and a runner. The runner makes up its mind which patches to look at when it is first asked,
and keeps to that choice until it is replaced: the choice is remembered as positions in the list of
patches, so that lines added later to a chosen patch are seen, while later patches, patterns and
moves change nothing.
-/

namespace ChangeReview

/-- The state of a session. -/
structure Session where
  patches : List Patch
  excludes : List String
  cwd : Path
  runner : String
  /-- How many arrays and objects one in the other a report is read with. -/
  room : Nat
  /-- The positions of the patches that the runner looks at, once it has made its choice. -/
  chosen : Option (List Nat)

/-- What can be done in a session. -/
inductive Session.Step where
  | select
  | run (checker : Child)
  | addPatch (p : Patch)
  | addLine (position : Nat) (line : Int)
  | exclude (pattern : String)
  | askExcluded (path : Path)
  | move (cwd : Path)
  | renewRunner

/-- What a step answers. -/
inductive Session.Answer where
  | selected (paths : List Path)
  | ran (outcome : Outcome (List Message))
  | patchCount (n : Nat)
  | additions (n : Int)
  | excludes (patterns : List String)
  | excluded (b : Bool)
  | done

namespace Session

/-- The positions of the patches that a runner chooses as things stand. -/
def choice (s : Session) : List Nat :=
  ((s.patches.zipIdx).filter fun (p, _) => p.isSelected s.cwd s.excludes).map (·.2)

/-- The session once its runner has made its choice. -/
def choose (s : Session) : Session := { s with chosen := some (s.chosen.getD s.choice) }

/-- The patches that the runner looks at, as they are now. -/
def selection (s : Session) : List Patch :=
  (s.chosen.getD s.choice).filterMap (s.patches[·]?)

/-- A step: the session behind it, and its answer. -/
def step (s : Session) : Step → Session × Answer
  | .select => (s.choose, .selected (s.selection.map Patch.path))
  | .run checker => (s.choose, .ran (review s.room s.selection s.runner checker))
  | .addPatch p => ({ s with patches := s.patches ++ [p] }, .patchCount (s.patches.length + 1))
  | .addLine position line =>
    let patches := s.patches.modify position (·.addLine line)
    ({ s with patches }, .additions ((patches[position]?.map Patch.additions).getD 0))
  | .exclude pattern =>
    let excludes := s.excludes ++ [pattern]
    ({ s with excludes }, .excludes excludes)
  | .askExcluded path => (s, .excluded (path.isExcluded s.cwd s.excludes))
  | .move cwd => ({ s with cwd }, .done)
  | .renewRunner => ({ s with chosen := none }, .done)

/-- The answers to steps that are taken one after the other. -/
def answers (s : Session) : List Step → List Answer
  | [] => []
  | step :: steps => (s.step step).2 :: (s.step step).1.answers steps

end Session

end ChangeReview
