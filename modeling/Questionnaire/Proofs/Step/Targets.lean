import Questionnaire.Form.Basic
import Questionnaire.Proofs.Step.Discovery

/-
  No reference of a form dangles.

  The fields of a step are those of its unit, so the target of a reference field is a unit that
  this unit refers to (`target_unitFields`). What a unit refers to is found by the search that
  found the unit, so the target has a step of its own (`exists_step_of_refersTo`).
-/

namespace Questionnaire

/-! ## Fields on pages -/

theorem mem_of_findField? {fields : List Field} {id : String} {f : Field}
    (h : findField? fields id = some f) : f ∈ fields := List.mem_of_find?_eq_some h

theorem id_of_findField? {fields : List Field} {id : String} {f : Field}
    (h : findField? fields id = some f) : f.id = id := by
  simpa using List.find?_some h

/-- A section shows of each id the first field that it is given. -/
theorem Presentation.findField?_of_mem_section? {q : Presentation} {fields : List Field}
    {entry : OrderEntry} {s : Section} {f : Field} (hs : q.section? fields entry = some s)
    (hf : f ∈ s.fields) : findField? fields f.id = some f := by
  cases entry with
  | single id =>
    obtain ⟨g, hg, rfl⟩ := Option.map_eq_some_iff.1 hs
    rw [List.mem_singleton.1 hf, id_of_findField? hg]
    exact hg
  | grouped key ids =>
    cases hs
    obtain ⟨id, -, hid⟩ := List.mem_filterMap.1 hf
    rw [id_of_findField? hid]
    exact hid

/-- A page shows of each id the first field that it is given. -/
theorem Presentation.findField?_of_mem_materialize {q : Presentation} {fields : List Field}
    {page : Page} {f : Field} (hpage : page ∈ q.materialize fields) (hf : f ∈ page.fields) :
    findField? fields f.id = some f := by
  obtain ⟨d, -, hlaid⟩ := exists_definition_of_mem_materialize hpage
  rw [hlaid] at hf
  obtain ⟨s, hs, hf⟩ := List.mem_flatMap.1 hf
  obtain ⟨entry, -, hentry⟩ := List.mem_filterMap.1 hs
  exact q.findField?_of_mem_section? hentry hf

theorem firstOfKeys_sublist (pages : List Page) : (firstOfKeys pages).Sublist pages := by
  induction pages with
  | nil => exact .slnil
  | cons p pages ih => exact (List.filter_sublist.trans ih).cons_cons p

namespace Package

variable {p : Package} {graphs : List RelationGraph} {u : CaptureUnit} {s : Step} {f : Field}
  {name id : String}

theorem mem_unitFields_of_mem_fields (hs : p.IsStepOf graphs u s) (hf : f ∈ s.fields) :
    f ∈ p.unitFields u := by
  rw [Step.fields, hs.pages] at hf
  obtain ⟨page, hpage, hf⟩ := List.mem_flatMap.1 hf
  split at hpage
  · rwa [List.mem_singleton.1 hpage, Page.fields_default] at hf
  · obtain ⟨d, -, hd⟩ := List.mem_flatMap.1 ((firstOfKeys_sublist _).mem hpage)
    exact mem_of_findField? (d.presentation.findField?_of_mem_materialize hd hf)

/-- All copies of a field are equal: they are made from the name of one attribute. -/
theorem eq_of_mem_fields (hs : s ∈ p.discoveredSteps) {g : Field} (hf : f ∈ s.fields)
    (hg : g ∈ s.fields) (hid : f.id = g.id) : f = g := by
  obtain ⟨u, hu⟩ := isStepOf_of_mem hs
  obtain ⟨a, -, rfl⟩ := List.mem_map.1 (mem_unitFields_of_mem_fields hu hf)
  obtain ⟨b, -, rfl⟩ := List.mem_map.1 (mem_unitFields_of_mem_fields hu hg)
  have hname : a.1 = b.1 := hid
  rw [hname]

theorem field?_of_mem_fields (hs : s ∈ p.discoveredSteps) (hf : f ∈ s.fields) :
    s.field? f.id = some f := by
  have hsome : (s.field? f.id).isSome := List.find?_isSome.2 ⟨f, hf, decide_eq_true rfl⟩
  obtain ⟨g, hg⟩ := Option.isSome_iff_exists.1 hsome
  have hid : g.id = f.id := id_of_findField? hg
  rw [hg, eq_of_mem_fields hs (List.mem_of_find?_eq_some hg) hf hid]

/-- Only reference fields have targets: the units that their attributes refer to. -/
theorem target_unitFields (hf : f ∈ p.unitFields u) :
    f.target = if f.kind = .reference then (SortedMap.ofList (u.links p.index)).get? f.id
      else none := by
  obtain ⟨a, -, rfl⟩ := List.mem_map.1 hf
  rfl

theorem refersTo_of_target (hs : p.IsStepOf graphs u s) (hf : f ∈ s.fields)
    (ht : f.target = some id) : u.RefersTo p.index f.id id := by
  rw [target_unitFields (mem_unitFields_of_mem_fields hs hf)] at ht
  split at ht
  · exact CaptureUnit.refersTo_of_get? ht
  · cases ht

theorem exists_target_of_refersTo (hs : p.IsStepOf graphs u s) (hf : f ∈ s.fields)
    (hkind : f.kind = .reference) (h : u.RefersTo p.index f.id id) :
    ∃ id', f.target = some id' := by
  rw [target_unitFields (mem_unitFields_of_mem_fields hs hf), if_pos hkind]
  exact CaptureUnit.exists_get?_of_refersTo h

/-! ## Every target has a step -/

theorem exists_step_of_refersTo (hs : s ∈ p.discoveredSteps) (hu : p.index.find? s.id = some u)
    (h : u.RefersTo p.index name id) : ∃ t ∈ p.discoveredSteps, t.id = id := by
  obtain ⟨d, hd, hreach⟩ := mem_map_id_discoveredSteps.1 (List.mem_map_of_mem hs)
  exact List.mem_map.1 (mem_map_id_discoveredSteps.2 ⟨d, hd, hreach.tail ⟨u, name, hu, h⟩⟩)

theorem exists_step_of_target (hs : s ∈ p.discoveredSteps) (hf : f ∈ s.fields)
    (ht : f.target = some id) : ∃ t ∈ p.discoveredSteps, t.id = id := by
  obtain ⟨u, hu⟩ := isStepOf_of_mem hs
  exact exists_step_of_refersTo hs hu.found (refersTo_of_target hu hf ht)

theorem perm_steps_compile (p : Package) : (Form.compile p).steps.Perm p.discoveredSteps := by
  rw [Form.compile]
  exact StepOrder.perm_ofSteps p.discoveredSteps

theorem mem_steps_compile : s ∈ (Form.compile p).steps ↔ s ∈ p.discoveredSteps :=
  (perm_steps_compile p).mem_iff

theorem exists_target_of_mem_references {r : Field × String} (hr : r ∈ s.references) :
    r.1 ∈ s.fields ∧ r.1.target = some r.2 := by
  obtain ⟨f, hf, hr⟩ := List.mem_filterMap.1 hr
  obtain ⟨t, ht, rfl⟩ := Option.map_eq_some_iff.1 hr
  rw [Field.referenceTarget?] at ht
  split at ht
  · exact ⟨hf, ht⟩
  · cases ht

/-- A field has a target exactly when it is a reference and its attribute refers to a known unit.
That unit has a step, so no reference of the form dangles. -/
theorem targets_correct (p : Package) :
    (∀ s ∈ p.discoveredSteps, ∃ u, p.index.find? s.id = some u ∧ ∀ f ∈ s.fields,
      (f.kind ≠ .reference → f.target = none) ∧
      (f.kind = .reference → ((∃ t, f.target = some t) ↔ ∃ t, u.RefersTo p.index f.id t)) ∧
      (f.kind = .reference → (u.captureBase.attributes.map (·.1)).Nodup →
        ∀ t, f.target = some t ↔ u.RefersTo p.index f.id t) ∧
      ∀ t, f.target = some t → u.RefersTo p.index f.id t ∧ ∃ s' ∈ p.discoveredSteps, s'.id = t) ∧
    ∀ s ∈ (Form.compile p).steps,
      (∀ f ∈ s.fields, ∀ t, f.target = some t → ∃ s' ∈ (Form.compile p).steps, s'.id = t) ∧
      ∀ r ∈ s.references, ∃ s' ∈ (Form.compile p).steps, s'.id = r.2 := by
  constructor
  · intro s hs
    obtain ⟨u, hu⟩ := isStepOf_of_mem hs
    refine ⟨u, hu.found, fun f hf => ⟨fun hkind => ?_, fun hkind => ⟨?_, ?_⟩,
      fun hkind hnames t => ⟨refersTo_of_target hu hf, fun h => ?_⟩,
      fun t ht => ⟨refersTo_of_target hu hf ht, exists_step_of_target hs hf ht⟩⟩⟩
    · rw [target_unitFields (mem_unitFields_of_mem_fields hu hf), if_neg hkind]
    · rintro ⟨t, ht⟩
      exact ⟨t, refersTo_of_target hu hf ht⟩
    · rintro ⟨t, h⟩
      exact exists_target_of_refersTo hu hf hkind h
    · obtain ⟨t', ht'⟩ := exists_target_of_refersTo hu hf hkind h
      rw [ht', CaptureUnit.RefersTo.unique hnames h (refersTo_of_target hu hf ht')]
  · intro s hs
    have hclosed (f : Field) (hf : f ∈ s.fields) (t : String) (ht : f.target = some t) :
        ∃ s' ∈ (Form.compile p).steps, s'.id = t := by
      obtain ⟨s', hs', hid⟩ := exists_step_of_target (mem_steps_compile.1 hs) hf ht
      exact ⟨s', mem_steps_compile.2 hs', hid⟩
    refine ⟨hclosed, fun r hr => ?_⟩
    obtain ⟨hf, ht⟩ := exists_target_of_mem_references hr
    exact hclosed r.1 hf r.2 ht

end Package
end Questionnaire
