import Questionnaire.Page.Basic
import Questionnaire.Warning

/-
  Laying out fields on the pages of a presentation.

  The pages follow the page order, each by the first definition of its key; a key without a
  definition gives no page. A single attribute becomes an anonymous section, a section collects
  the fields it lists. An attribute without a field is left out, a section never is.
-/

namespace Questionnaire

/-- The non-empty texts of a key, per language. -/
def textsOfKey (texts : LanguageMap (SortedMap String)) (key : String) : LanguageMap String :=
  texts.filterMap fun _ m => (m.get? key).filter (· ≠ "")

/-- The first field with an id. -/
def findField? (fields : List Field) (id : String) : Option Field := fields.find? (·.id = id)

/-- The section without a name that holds one field. -/
def Section.anonymous (id : String) (f : Field) : Section := { key := id, fields := [f] }

namespace Presentation

/-- The section of an entry in a page's order. -/
def section? (p : Presentation) (fields : List Field) : OrderEntry → Option Section
  | .single id => (findField? fields id).map (Section.anonymous id)
  | .grouped key ids =>
    some { key, labels := textsOfKey p.pageLabels key, fields := ids.filterMap (findField? fields) }

/-- The page of a key, laid out by a definition. -/
def layOut (p : Presentation) (fields : List Field) (key : String) (d : PageDefinition) : Page where
  key
  labels := textsOfKey p.pageLabels key
  sidebarLabels := textsOfKey p.sidebarLabels key
  subheadings := textsOfKey p.subheadings key
  sections := d.order.filterMap (p.section? fields)
  captureUnit := p.captureBase

/-- The pages of a presentation with the given fields. -/
def materialize (p : Presentation) (fields : List Field) : List Page :=
  p.pageOrder.filterMap fun key => (p.page? key).map (p.layOut fields key)

theorem exists_definition_of_mem_materialize {p : Presentation} {fields : List Field} {page : Page}
    (h : page ∈ p.materialize fields) :
    ∃ d, p.page? page.key = some d ∧ page = p.layOut fields page.key d := by
  obtain ⟨key, -, hkey⟩ := List.mem_filterMap.1 h
  obtain ⟨d, hd, rfl⟩ := Option.map_eq_some_iff.1 hkey
  exact ⟨d, hd, rfl⟩

/-- The warnings about pages that are listed but not defined. -/
def layoutWarnings (p : Presentation) : List Warning :=
  p.pageOrder.filterMap fun key =>
    if (p.page? key).isNone then some (.undefinedPage p.captureBase key) else none

end Presentation

/-- The page that shows all fields of a unit, each in a section of its own. -/
def Page.default (captureUnit : String) (fields : List Field) : Page where
  key := captureUnit
  sections := fields.map fun f => Section.anonymous f.id f
  captureUnit

theorem Page.fields_default (id : String) (fields : List Field) :
    (Page.default id fields).fields = fields := by
  rw [Page.fields, Page.default, List.flatMap_map]
  exact List.flatMap_singleton' fields

end Questionnaire
