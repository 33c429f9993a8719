import Questionnaire.Step.Basic

/-
  The steps of a form as a tree.

  The roots are the steps that no reference leads to, or the first step when references lead to
  all of them. Below a step stand the steps that it references, in the order of its fields, each
  once and none that stands above it. A branch uses up the steps it goes through, so it ends.
-/

namespace Questionnaire

/-- Whether any of the steps references a step. -/
def isReferenced (steps : List Step) (id : String) : Bool := steps.any (·.referencesStep id)

/-- The steps that no reference leads to, in order. -/
def parentSteps (steps : List Step) : List Step := steps.filter fun s => !isReferenced steps s.id

/-- The first step that references a step. -/
def referencingStep? (steps : List Step) (child : String) : Option Step :=
  steps.find? (·.referencesStep child)

/-- A step with those below it. -/
inductive StepTree
  | node (id : String) (children : List StepTree)
deriving Repr

namespace StepTree

/-- The step at the root. -/
def id : StepTree → String
  | node id _ => id

/-- The trees below the root. -/
def children : StepTree → List StepTree
  | node _ children => children

/-- The steps that do not have an id. -/
def without (steps : List Step) (id : String) : List Step := steps.filter (·.id ≠ id)

theorem length_without_lt {steps : List Step} {id : String} {s : Step}
    (h : steps.find? (·.id = id) = some s) : (without steps id).length < steps.length := by
  have hmem := List.mem_of_find?_eq_some h
  have hid : s.id = id := by simpa using List.find?_some h
  have hle : (without steps id).length ≤ steps.length := List.length_filter_le ..
  rcases Nat.lt_or_eq_of_le hle with hlt | heq
  · exact hlt
  · have := List.length_filter_eq_length_iff.1 heq s hmem
    simp [hid] at this

/-- The tree below a step, with the steps that may still stand in it. -/
def grow (free : List Step) (s : Step) : StepTree :=
  node s.id (s.targets.eraseDups.filterMap fun id =>
    match _ : free.find? (·.id = id) with
    | some child => some (grow (without free id) child)
    | none => none)
termination_by free.length
decreasing_by exact length_without_lt ‹_›

theorem grow_eq (free : List Step) (s : Step) :
    grow free s = node s.id (s.targets.eraseDups.filterMap fun id =>
      (free.find? (·.id = id)).map (grow (without free id))) := by
  rw [grow]
  congr 2
  funext id
  split <;> next h => rw [h]; rfl

/-- The trees of a list of steps. -/
def ofSteps (steps : List Step) : List StepTree :=
  let roots := parentSteps steps
  (if roots.isEmpty then steps.take 1 else roots).map fun s => grow (without steps s.id) s

end StepTree
end Questionnaire
