import Questionnaire.Step.Compile
import Questionnaire.Step.Order
import Questionnaire.Step.Tree

/-
  Forms: the steps of a package in the order in which they are filled in.

  A step that no reference leads to is a parent step; those are walked through page by page, the
  others are filled in as records of the fields that lead to them.
-/

namespace Questionnaire

/-- A compiled form. -/
structure Form where
  steps : List Step := []
  /-- The languages that the presentations offer. -/
  languages : List String := []
  /-- The steps that could not be put in order, if any. -/
  cycle : Option CyclicReferences := none
deriving DecidableEq

namespace Form

/-- The languages of presentations, each once, English when there are none. -/
def languagesOf (presentations : List Presentation) : List String :=
  let languages := (presentations.flatMap (·.languages)).eraseDups
  if languages.isEmpty then [defaultLanguage] else languages

/-- Compiles a package. -/
def compile (p : Package) : Form :=
  let order := StepOrder.ofSteps p.discoveredSteps
  { steps := order.steps, languages := languagesOf p.presentations, cycle := order.cycle }

/-- The warnings of compiling a package. -/
def compileWarnings (p : Package) : List Warning :=
  p.compilation.warnings ++
    ((StepOrder.ofSteps p.discoveredSteps).cycle.map .discoveryOrderKept).toList

/-- The position of the first step with an id. -/
def stepIndex? (f : Form) (id : String) : Option Nat := StepOrder.position? f.steps id

/-- The first step with an id. -/
def step? (f : Form) (id : String) : Option Step := f.steps.find? (·.id = id)

/-- The step at a position. -/
def stepAt (f : Form) (index : Nat) : Except FormError Step :=
  match f.steps[index]? with
  | some s => .ok s
  | none => .error (.stepOutOfRange index f.steps.length)

/-- Whether a step is there and no reference leads to it. -/
def isParent (f : Form) (index : Nat) : Bool :=
  match f.steps[index]? with
  | some s => !isReferenced f.steps s.id
  | none => false

/-- The positions of the parent steps, in order. -/
def parentIndices (f : Form) : List Nat := (List.range f.steps.length).filter f.isParent

/-- The parent steps, in order. -/
def parents (f : Form) : List Step := parentSteps f.steps

/-- The position of the first step that references a step. -/
def referencingIndex? (f : Form) (child : String) : Option Nat :=
  f.steps.findIdx? (·.referencesStep child)

/-- The steps as a tree. -/
def tree (f : Form) : List StepTree := StepTree.ofSteps f.steps

end Form
end Questionnaire
