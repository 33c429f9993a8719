import Mathlib.Data.List.Forall2
import Questionnaire.Page.Layout

/-
  What a presentation makes of a list of fields.

  A page is made in three levels, and each leaves something out by a rule of its own: a page
  without a definition, an attribute without a field that stands alone, and one that stands in a
  section. `Gives` says what becomes of one entry of a page, `LaidOut` what becomes of a page.
  `fields_layOut` is the sequence of fields across the sections: the listed attributes in their
  order, each as the first field of its name.
-/

namespace Questionnaire

/-- The attributes that an entry lists, in order. -/
def OrderEntry.attributes : OrderEntry → List String
  | .single id => [id]
  | .grouped _ ids => ids

/-- The attributes that a page lists, in order, whatever section they stand in. -/
def PageDefinition.attributes (d : PageDefinition) : List String := d.order.flatMap (·.attributes)

namespace Presentation

/-- What becomes of an entry of a page. -/
inductive Gives (q : Presentation) (fields : List Field) : OrderEntry → List Section → Prop
  /-- An attribute with a field is shown alone. -/
  | shown {id : String} {f : Field} (h : fields.find? (·.id = id) = some f) :
    q.Gives fields (.single id) [{ key := id, labels := ∅, fields := [f] }]
  /-- An attribute without a field is left out. -/
  | dropped {id : String} (h : ∀ f ∈ fields, f.id ≠ id) : q.Gives fields (.single id) []
  /-- A section stays, with the fields that there are, even with none. -/
  | kept {key : String} {ids : List String} {s : Section} (hkey : s.key = key)
    (hlabels : s.labels = textsOfKey q.pageLabels key)
    (hfields : s.fields = ids.filterMap fun id => fields.find? (·.id = id)) :
    q.Gives fields (.grouped key ids) [s]

/-- What becomes of a page. -/
structure LaidOut (q : Presentation) (fields : List Field) (page : Page) (d : PageDefinition) :
    Prop where
  /-- Of several definitions of a key the first one is followed. -/
  definition : q.pages.find? (·.key = page.key) = some d
  /-- The fields of all sections are those of the listed attributes. -/
  attributes : page.fields = d.attributes.filterMap fun id => fields.find? (·.id = id)
  /-- The sections are what the entries give, one behind the other. -/
  sections : ∃ given, List.Forall₂ (q.Gives fields) d.order given ∧ page.sections = given.flatten

variable {q : Presentation} {fields : List Field}

theorem gives_section? (q : Presentation) (fields : List Field) (entry : OrderEntry) :
    q.Gives fields entry (q.section? fields entry).toList := by
  cases entry with
  | single id =>
    change q.Gives fields (.single id) ((findField? fields id).map (Section.anonymous id)).toList
    cases hfind : findField? fields id with
    | some f => exact .shown hfind
    | none =>
      apply Gives.dropped
      intro f hf
      simpa using List.find?_eq_none.1 hfind f hf
  | grouped key ids => exact .kept rfl rfl rfl

theorem fields_section? (q : Presentation) (fields : List Field) (entry : OrderEntry) :
    (q.section? fields entry).toList.flatMap (·.fields) =
      entry.attributes.filterMap (findField? fields) := by
  cases entry with
  | single id =>
    unfold section? OrderEntry.attributes
    cases hfind : findField? fields id with
    | some f => simp [Section.anonymous, hfind]
    | none => simp [hfind]
  | grouped key ids => exact List.flatMap_singleton _ _

theorem sections_layOut (q : Presentation) (fields : List Field) (key : String)
    (d : PageDefinition) :
    (q.layOut fields key d).sections =
      (d.order.map fun entry => (q.section? fields entry).toList).flatten := by
  unfold layOut
  rw [← List.flatMap_def, List.filterMap_eq_flatMap_toList]

/-- Sections divide the listed attributes, and neither move nor repeat any. -/
theorem fields_layOut (q : Presentation) (fields : List Field) (key : String)
    (d : PageDefinition) :
    (q.layOut fields key d).fields = d.attributes.filterMap (findField? fields) := by
  calc (q.layOut fields key d).fields
    _ = (d.order.flatMap fun entry => (q.section? fields entry).toList).flatMap (·.fields) := by
      rw [Page.fields, sections_layOut, ← List.flatMap_def]
    _ = d.order.flatMap fun entry => (q.section? fields entry).toList.flatMap (·.fields) :=
      List.flatMap_assoc
    _ = d.order.flatMap fun entry => entry.attributes.filterMap (findField? fields) := by
      simp only [fields_section?]
    _ = d.attributes.filterMap (findField? fields) := by
      rw [PageDefinition.attributes, List.filterMap_flatMap]

theorem laidOut_layOut {key : String} {d : PageDefinition} (h : q.page? key = some d) :
    q.LaidOut fields (q.layOut fields key d) d where
  definition := h
  attributes := q.fields_layOut fields key d
  sections := by
    refine ⟨_, ?_, q.sections_layOut fields key d⟩
    rw [List.forall₂_map_right_iff, List.forall₂_same]
    exact fun entry _ => q.gives_section? fields entry

theorem map_key_materialize (q : Presentation) (fields : List Field) :
    (q.materialize fields).map (·.key) = q.pageOrder.filter fun key => q.pages.any (·.key = key) := by
  unfold materialize
  rw [List.map_filterMap, ← List.filterMap_eq_filter]
  apply List.filterMap_congr
  intro key _
  have hany : q.pages.any (·.key = key) = (q.page? key).isSome := List.isSome_find?.symm
  rw [Option.guard, hany]
  cases q.page? key with
  | some d => rfl
  | none => rfl

/-- The pages are those of the page order that are defined, in that order and as often as they are
listed. Each follows the first definition of its key: its fields are the listed attributes in their
order, and each entry gives its sections. -/
theorem laidOut_materialize (q : Presentation) (fields : List Field) :
    ((q.materialize fields).map (·.key) =
      q.pageOrder.filter fun key => q.pages.any (·.key = key)) ∧
    ∀ page ∈ q.materialize fields, ∃ d, q.LaidOut fields page d := by
  refine ⟨q.map_key_materialize fields, ?_⟩
  intro page hpage
  obtain ⟨key, -, hkey⟩ := List.mem_filterMap.1 hpage
  obtain ⟨d, hd, rfl⟩ := Option.map_eq_some_iff.1 hkey
  exact ⟨d, laidOut_layOut hd⟩

/-- A page that is listed twice is shown twice, and a section stays when none of its attributes has
a field. -/
example :
    let q : Presentation := {
      pages := [{ key := "about", order := [.single "isbn", .grouped "makers" ["editor"]] }]
      pageOrder := ["about", "prices", "about"] }
    (q.materialize [{ id := "title" }]).map (fun page =>
        (page.key, page.sections.map fun s => (s.key, s.fields.map (·.id)))) =
      [("about", [("makers", [])]), ("about", [("makers", [])])] := by decide

end Presentation
end Questionnaire
