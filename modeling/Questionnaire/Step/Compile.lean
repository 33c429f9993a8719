import Questionnaire.Field.Synthesis
import Questionnaire.Page.Layout
import Questionnaire.Reference.Graph
import Questionnaire.Step.Assembly

/-
  Compiling a package into steps, in order of discovery.

  The presentations of the main unit come first. Each one is followed through the reference graph
  of the unit it describes: every unit in it gets a step, and the presentation's pages go to the
  unit itself. The fields of a unit use the hints of the first presentation that describes it. A
  step that no presentation gave a page gets one that shows all fields of its unit.
-/

namespace Questionnaire

/-- A presentation with the identifier of the unit it describes. -/
structure Described where
  unit : String
  presentation : Presentation

/-- The presentations of a package with their units, those that name the main unit first. -/
def Package.described (p : Package) : List Described :=
  let index := UnitIndex.ofBundle p.bundle
  let namesMain (q : Presentation) : Bool := q.captureBase = p.mainId
  (p.presentations.filter namesMain ++ p.presentations.filter fun q => !namesMain q).map fun q =>
    ⟨(index.canonicalId? q.captureBase).getD q.captureBase, q⟩

/-- What the steps of a package are made from. -/
structure Compilation where
  index : UnitIndex
  described : List Described
  main : String

/-- What the steps of a package are made from. -/
def Package.compilation (p : Package) : Compilation :=
  ⟨UnitIndex.ofBundle p.bundle, p.described, p.mainId⟩

namespace Compilation

/-- The title of the form: that of the first presentation of the main unit. -/
def title (c : Compilation) : LanguageMap String :=
  ((c.described.find? (·.unit = c.main)).map (·.presentation.title)).getD ∅

/-- The unit of a node. -/
def unitOf (c : Compilation) (n : RelationNode) : CaptureUnit := (c.index.find? n.id).getD {}

/-- The hint for an attribute of a unit, from the first presentation that describes the unit. -/
def hint? (c : Compilation) (unit id : String) : Option Hint :=
  (c.described.find? (·.unit = unit)).bind (·.presentation.hint? id)

/-- The fields of a unit, one for each attribute. -/
def fields (c : Compilation) (n : RelationNode) : List Field :=
  let overlays := OverlayProjection.ofUnit (c.unitOf n)
  n.fields.map fun id => Field.synthesize id overlays (c.hint? n.id id) n.references

/-- What a presentation contributes to the step of a unit that it reaches. -/
def draft (c : Compilation) (d : Described) (n : RelationNode) : StepDraft :=
  let texts := StepTexts.ofUnit (c.unitOf n)
  { id := n.id
    names := texts.names
    descriptions := texts.descriptions
    parent := n.parent
    pages := if n.id = d.unit then d.presentation.materialize (c.fields n) else [] }

/-- The units that a presentation reaches. -/
def graph (c : Compilation) (d : Described) : RelationGraph := RelationGraph.extract c.index d.unit

/-- All contributions of all presentations, in order. -/
def drafts (c : Compilation) : List StepDraft :=
  c.described.flatMap fun d => (c.graph d).map (c.draft d)

/-- The node of a unit, from the first graph that holds it. -/
def node? (c : Compilation) (id : String) : Option RelationNode :=
  c.described.findSome? fun d => (c.graph d).get? id

/-- The step with a page for all its fields, if it has no page yet. -/
def withDefaultPage (c : Compilation) (s : Step) : Step :=
  if s.pages.isEmpty then
    match c.node? s.id with
    | some n => { s with pages := [Page.default s.id (c.fields n)] }
    | none => s
  else s

/-- The steps in order of discovery. -/
def steps (c : Compilation) : List Step :=
  (assembleSteps c.main c.title c.drafts).map c.withDefaultPage

/-! ## Warnings -/

/-- The warnings of making the fields of a unit. -/
def fieldWarnings (c : Compilation) (n : RelationNode) : List Warning :=
  let overlays := OverlayProjection.ofUnit (c.unitOf n)
  n.fields.flatMap fun id =>
    Field.synthesisWarnings id overlays (c.hint? n.id id) n.references

/-- The warnings of following a presentation; fields that were `made` before warn no more. -/
def presentationWarnings (c : Compilation) (made : List String) (d : Described) : List Warning :=
  let g := c.graph d
  RelationGraph.extractWarnings c.index d.unit ++
    (if g.isEmpty then [.presentationOfUnknownUnit d.presentation.captureBase] else []) ++
    g.flatMap fun n =>
      (if made.contains n.id then [] else c.fieldWarnings n) ++
        if n.id = d.unit then d.presentation.layoutWarnings else []

/-- The warnings of following presentations one after another. -/
def walkWarnings (c : Compilation) (made : List String) : List Described → List Warning
  | [] => []
  | d :: ds =>
    c.presentationWarnings made d ++ c.walkWarnings (made ++ (c.graph d).map (·.id)) ds

/-- The warnings of compiling, in the order in which the causes are met. -/
def warnings (c : Compilation) : List Warning :=
  if c.described.isEmpty then [.noPresentations]
  else
    c.walkWarnings [] c.described ++
      (assembleSteps c.main c.title c.drafts).filterMap fun s =>
        if s.pages.isEmpty && (c.node? s.id).isSome then some (.defaultPage s.id) else none

end Compilation

/-- The steps of a package, in order of discovery. -/
def Package.discoveredSteps (p : Package) : List Step := p.compilation.steps

end Questionnaire
