import Questionnaire.Field.Serial
import Questionnaire.Step.Basic
import Questionnaire.Step.Tree

/-
  Steps, pages and trees of steps as JSON.

  Empty texts are left out where a slot may be missing, so every step reads back as itself.
-/

namespace Questionnaire
open Json Json.Decoder

/-! ## Reading -/

/-- A section. -/
def Section.decoder : Decoder Section :=
  record [
    required "key" text fun s v => { s with key := v },
    optional "label" (sortedMap text) fun s v => { s with labels := v },
    required "fields" (list Field.decoder) fun s v => { s with fields := v }] {}

/-- A page. -/
def Page.decoder : Decoder Page :=
  record [
    required "key" text fun p v => { p with key := v },
    optional "label" (sortedMap text) fun p v => { p with labels := v },
    optional "sidebar_label" (sortedMap text) fun p v => { p with sidebarLabels := v },
    optional "subheading" (sortedMap text) fun p v => { p with subheadings := v },
    required "sections" (list Section.decoder) fun p v => { p with sections := v },
    required "capture_unit" text fun p v => { p with captureUnit := v }] {}

/-- A step. -/
def Step.decoder : Decoder Step :=
  record [
    required "id" text fun s v => { s with id := v },
    optional "names" (sortedMap text) fun s v => { s with names := v },
    optional "descriptions" (sortedMap text) fun s v => { s with descriptions := v },
    optional "title" (option (sortedMap text)) fun s v => { s with title := v },
    optional "parent" (option text) fun s v => { s with parent := v },
    required "pages" (list Page.decoder) fun s v => { s with pages := v }] {}

/-! ## Writing -/

/-- A section as JSON. -/
def Section.toJson (s : Section) : Json :=
  .object ([("key", .text s.key)] ++ mapEntry "label" .text s.labels ++
    [("fields", ofList Field.toJson s.fields)])

/-- A page as JSON. -/
def Page.toJson (p : Page) : Json :=
  .object ([("key", .text p.key), ("label", ofTextMap p.labels)] ++
    mapEntry "sidebar_label" .text p.sidebarLabels ++
    mapEntry "subheading" .text p.subheadings ++
    [("sections", ofList Section.toJson p.sections), ("capture_unit", .text p.captureUnit)])

/-- A step as JSON. -/
def Step.toJson (s : Step) : Json :=
  .object ([("id", .text s.id), ("names", ofTextMap s.names),
    ("descriptions", ofTextMap s.descriptions)] ++
    entry? "title" ofTextMap s.title ++
    [("parent", ofText? s.parent), ("pages", ofList Page.toJson s.pages)])

mutual

/-- A tree of steps as JSON. -/
def StepTree.toJson : StepTree → Json
  | .node id children => .object [("id", .text id), ("children", .array (listToJson children))]

/-- Trees of steps as JSON. -/
def StepTree.listToJson : List StepTree → List Json
  | [] => []
  | t :: ts => t.toJson :: StepTree.listToJson ts

end

end Questionnaire
