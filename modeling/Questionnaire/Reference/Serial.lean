import Questionnaire.Package.Encode
import Questionnaire.Reference.Graph

/-
  The reference graph as JSON.
-/

namespace Questionnaire
open Json

/-- A unit in the reference graph as JSON. -/
def RelationNode.toJson (n : RelationNode) : Json :=
  .object [("id", .text n.id), ("is_parent", .bool n.isParent), ("parent", ofText? n.parent),
    ("children", ofTexts n.children), ("fields", ofTexts n.fields),
    ("refs", ofTextMap n.references)]

end Questionnaire
