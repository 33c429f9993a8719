import Questionnaire.Step.Basic

/-
  Assembling steps from drafts.

  A draft holds what one presentation says about one unit. The first draft of a unit fixes the
  texts and the parent of its step; every draft adds the pages whose keys the step does not have
  yet. Steps stand in the order of their first drafts.
-/

namespace Questionnaire

/-- What one presentation contributes to the step of one unit. -/
structure StepDraft where
  id : String := ""
  names : LanguageMap String := ∅
  descriptions : LanguageMap String := ∅
  parent : Option String := none
  pages : List Page := []
deriving DecidableEq

/-- Pages with one more, unless its key is there already. -/
def addPage (pages : List Page) (page : Page) : List Page :=
  if pages.any (·.key = page.key) then pages else pages ++ [page]

/-- Pages with more behind them, each key once. -/
def addPages (pages new : List Page) : List Page := new.foldl addPage pages

/-- The steps of a form as they are assembled. -/
structure StepAssembly where
  /-- The unit whose step carries the title. -/
  main : String
  title : LanguageMap String
  steps : List Step := []

namespace StepAssembly

/-- The step that a first draft opens, without its pages. -/
def opened (a : StepAssembly) (d : StepDraft) : Step where
  id := d.id
  names := d.names
  descriptions := d.descriptions
  title := if d.id = a.main && !a.title.isEmpty then some a.title else none
  parent := d.parent

/-- The steps with the pages of a draft added to the step of its unit. -/
def extend (a : StepAssembly) (d : StepDraft) : List Step → List Step
  | [] => [{ a.opened d with pages := addPages [] d.pages }]
  | s :: steps =>
    if s.id = d.id then { s with pages := addPages s.pages d.pages } :: steps
    else s :: a.extend d steps

/-- The assembly with one more draft. -/
def add (a : StepAssembly) (d : StepDraft) : StepAssembly :=
  { a with steps := a.extend d a.steps }

/-- The assembly with a list of drafts, in order. -/
def addAll (a : StepAssembly) (drafts : List StepDraft) : StepAssembly := drafts.foldl add a

end StepAssembly

/-- The steps of a list of drafts. -/
def assembleSteps (main : String) (title : LanguageMap String) (drafts : List StepDraft) :
    List Step :=
  (StepAssembly.addAll { main, title } drafts).steps

end Questionnaire
