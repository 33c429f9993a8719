import Questionnaire.Form.Basic
import Questionnaire.Text.Colour

/-
  The outline of a form: its title, languages and steps as a tree, then every step with its pages,
  sections and fields.

  An outline is a list of lines. Names stand in the chosen language; colours are written only on
  request.
-/

namespace Questionnaire
open Text

/-- How an outline is written. -/
structure OutlineStyle where
  language : String
  coloured : Bool

namespace OutlineStyle

/-- A span in a style. -/
def span (o : OutlineStyle) (style : Style) (text : String) : String :=
  paint o.coloured style text

/-- Blanks in front of a line. -/
def indent (width : Nat) : String := String.ofList (List.replicate width ' ')

/-- The name of a step, or its id when the form does not have it. -/
def stepName (o : OutlineStyle) (f : Form) (id : String) : String :=
  ((f.step? id).map (·.name o.language)).getD id

mutual

/-- The lines of a tree of steps. -/
def treeLines (o : OutlineStyle) (f : Form) (depth : Nat) : StepTree → List String
  | .node id children =>
    (indent (2 * depth) ++ o.stepName f id) :: treesLines o f (depth + 1) children

/-- The lines of several trees. -/
def treesLines (o : OutlineStyle) (f : Form) (depth : Nat) : List StepTree → List String
  | [] => []
  | t :: ts => treeLines o f depth t ++ treesLines o f depth ts

end

/-- Where a field leads to. -/
def leading (o : OutlineStyle) (form : Form) (f : Field) : String :=
  match f.referenceTarget? with
  | some target => " -> " ++ o.stepName form target
  | none =>
    if f.kind = .reference then " " ++ o.span { colour := some .yellow } "-> unresolved" else ""

/-- The line of a field. -/
def fieldLine (o : OutlineStyle) (form : Form) (f : Field) : String :=
  "- " ++ f.displayLabel o.language ++ " " ++ o.span { dimmed := true } (ticked f.id) ++ " " ++
    o.span { colour := some .cyan } f.kind.name ++
    (if f.isMandatory then " " ++ o.span { colour := some .red } "required" else "") ++
    (match f.options? o.language with
      | some options => " (" ++ decimal options.length ++ " options)"
      | none => "") ++
    o.leading form f

/-- The lines of a section; a label stands above its fields and moves them in. -/
def sectionLines (o : OutlineStyle) (form : Form) (s : Section) : List String :=
  let fields (width : Nat) := s.fields.map fun f => indent width ++ o.fieldLine form f
  match s.label? o.language with
  | some label =>
    (indent 4 ++ o.span { colour := some .blue } "section" ++ " " ++ label) :: fields 6
  | none => fields 4

/-- The lines of a page. -/
def pageLines (o : OutlineStyle) (form : Form) (p : Page) : List String :=
  (indent 2 ++ o.span { colour := some .green } "page" ++ " " ++
      (p.label? o.language).getD p.key) ::
    p.sections.flatMap (o.sectionLines form)

/-- The lines of the step at a position. -/
def stepLines (o : OutlineStyle) (form : Form) (index : Nat) (s : Step) : List String :=
  let role := if form.isParent index then "parent" else "child"
  (o.span { colour := some .cyan } ("[" ++ decimal (index + 1) ++ "]") ++ " " ++
      o.span { bold := true } (s.name o.language) ++ " " ++
      o.span { dimmed := true } ("(" ++ role ++ ", " ++ s.id ++ ")")) ::
    ((s.description? o.language).map fun d => indent 4 ++ o.span { italic := true } d).toList ++
    s.pages.flatMap (o.pageLines form)

/-- The lines of all steps, an empty line in front of each. -/
def stepsLines (o : OutlineStyle) (form : Form) : List String :=
  form.steps.zipIdx.flatMap fun (s, index) => "" :: o.stepLines form index s

/-- The lines above the steps. -/
def headLines (o : OutlineStyle) (form : Form) : List String :=
  ((form.steps.head?.bind (·.title? o.language)).map
      (o.span { bold := true, underline := true })).toList ++
    ["languages: " ++ commaSeparated form.languages] ++
    (form.cycle.map fun c => o.span { colour := some .yellow } c.message).toList ++
    ["", o.span { bold := true } "Steps"] ++
    o.treesLines form 1 form.tree

end OutlineStyle

/-- The text of some lines, each ended by a line break. -/
def linesText (lines : List String) : String := String.join (lines.map (· ++ "\n"))

/-- The outline of a form. -/
def Form.outline (form : Form) (language : String) (coloured : Bool) : String :=
  let o : OutlineStyle := { language, coloured }
  linesText (o.headLines form ++ o.stepsLines form)

end Questionnaire
