import Questionnaire.Step.Basic
import Questionnaire.Error

/-
  Ordering steps so that every step comes before the steps it references.

  Steps are numbered by their positions. The number of steps that still have to come before a
  step is counted down as steps are placed; a step whose count reaches zero joins the end of the
  queue of ready steps, which starts with the steps that nothing references. If the queue runs dry
  before all steps are placed, the references go in a circle and the given order is kept.
-/

namespace Questionnaire

/-- The result of ordering steps. -/
structure StepOrder where
  steps : List Step
  /-- The steps that could not be placed, if any. -/
  cycle : Option CyclicReferences
deriving DecidableEq

namespace StepOrder

/-- The position of the first step with an id. -/
def position? (steps : List Step) (id : String) : Option Nat := steps.findIdx? (·.id = id)

/-- The positions that a step references, each once, in the order of its fields. -/
def successors (steps : List Step) (s : Step) : List Nat :=
  (s.targets.filterMap (position? steps)).eraseDups

/-- For every position the positions that its step references. -/
def edges (steps : List Step) : List (List Nat) := steps.map (successors steps)

/-- The number of positions that reference a position. -/
def inDegree (edges : List (List Nat)) (j : Nat) : Nat := edges.countP (·.contains j)

/-- How far the placing of steps has come. -/
structure Progress where
  /-- For every position the number of unplaced steps that reference it. -/
  degrees : List Nat
  /-- The positions that may be placed, next first. -/
  ready : List Nat
  /-- The positions already placed, in order. -/
  placed : List Nat
deriving DecidableEq, Repr

/-- Counts down the degree of a position that a placed step references. -/
def release (p : Progress) (j : Nat) : Progress :=
  let degree := p.degrees.getD j 0 - 1
  { p with
    degrees := p.degrees.set j degree
    ready := if degree = 0 then p.ready ++ [j] else p.ready }

/-- Places the next ready position. -/
def advance (edges : List (List Nat)) (p : Progress) : Progress :=
  match p.ready with
  | [] => p
  | i :: ready =>
    (edges.getD i []).foldl release { p with ready, placed := p.placed ++ [i] }

/-- Nothing placed yet, the positions that nothing references ready. -/
def start (edges : List (List Nat)) : Progress :=
  let degrees := (List.range edges.length).map (inDegree edges)
  { degrees, ready := (List.range edges.length).filter fun i => degrees.getD i 0 = 0, placed := [] }

/-- Places up to `n` positions. -/
def placeUpTo (edges : List (List Nat)) : Nat → Progress → Progress
  | 0, p => p
  | n + 1, p => placeUpTo edges n (advance edges p)

/-- Places all positions that can be placed. -/
def place (edges : List (List Nat)) : Progress := placeUpTo edges edges.length (start edges)

/-- Orders steps. -/
def ofSteps (steps : List Step) : StepOrder :=
  let done := place (edges steps)
  if done.placed.length = steps.length then
    ⟨done.placed.filterMap (steps[·]?), none⟩
  else
    let unresolved := (List.range steps.length).filter fun i => 0 < done.degrees.getD i 0
    ⟨steps, some ⟨unresolved.filterMap fun i => (steps[i]?).map (·.id)⟩⟩

end StepOrder
end Questionnaire
