import Questionnaire.Overlay.Projection
import Questionnaire.Warning

/-
  Making a field from what is known about an attribute: the overlays of its unit, the hint of a
  presentation and the references of the unit.

  The kind of input comes from the hint; an unknown name gives a text area. Without a declared
  type the field is an enumeration when the attribute has English options, else a text area. Only
  a reference field gets a target, and only when the attribute's reference resolves.
-/

namespace Questionnaire

/-- What a map of maps holds for an attribute, per language. -/
def perLanguage {α : Type} (m : LanguageMap (SortedMap α)) (id : String) : LanguageMap α :=
  m.filterMap fun _ attributes => attributes.get? id

/-- The type name that a hint declares. -/
def declaredType? (hint : Option Hint) : Option String := do
  let h ← hint
  let k ← h.kind
  k.name?

/-- The kind of input of an attribute. -/
def fieldKind (id : String) (overlays : OverlayProjection) (hint : Option Hint) : FieldKind :=
  match declaredType? hint with
  | some name => (FieldKind.ofHint? name).getD .textarea
  | none =>
    if ((overlays.options.get? defaultLanguage).getD ∅).contains id then .enumeration
    else .textarea

/-- The field of an attribute. -/
def Field.synthesize (id : String) (overlays : OverlayProjection) (hint : Option Hint)
    (references : SortedMap String) : Field :=
  let kind := fieldKind id overlays hint
  { id
    labels := perLanguage overlays.labels id
    options := perLanguage overlays.options id
    information := perLanguage overlays.information id
    kind
    orientation := do
      let h ← hint
      let name ← h.orientation
      Orientation.ofHint? name
    value := hint.bind (·.value)
    target := if kind = .reference then references.get? id else none
    referenceButtonText := hint.bind (·.referenceButtonText)
    showingAttribute := (hint.map (·.showingAttribute.toList)).getD []
    placeholder := hint.bind (·.placeholder)
    rules :=
      { conformance := (overlays.conformance.get? id).getD .voluntary
        format := overlays.format.get? id
        entryCodes := (overlays.entryCodes.get? id).getD []
        characterEncoding := overlays.characterEncoding.get? id
        cardinality := overlays.cardinality.get? id } }

/-- The warnings of making the field of an attribute. -/
def Field.synthesisWarnings (id : String) (overlays : OverlayProjection) (hint : Option Hint)
    (references : SortedMap String) : List Warning :=
  let unknown := match declaredType? hint with
    | some name => if (FieldKind.ofHint? name).isNone then [.unknownFieldType id name] else []
    | none => []
  let dangling :=
    if fieldKind id overlays hint = .reference && !references.contains id then
      [.unresolvableReference id]
    else []
  unknown ++ dangling

end Questionnaire
