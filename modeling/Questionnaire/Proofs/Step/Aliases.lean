import Mathlib
import Questionnaire.Proofs.Step.Hints

/-
  Presentations that name their unit by an alias.

  A presentation may name its unit by the digest of the capture base or by a unit's own digest, an
  alias. Whose pages it lays out goes by the unit that the name leads to. Two things go by the name
  as it is written: whether a presentation is taken before the others as one of the main unit, and
  what unit a page says that it belongs to.

  So the step discovered first is that of the main unit if some presentation names it by the digest
  of its capture base, else that of the first presentation of a known unit (`id_first_step`); naming
  the main unit by an alias does not bring its step to the front (`alias_found_second`). And a page
  names its unit as its presentation does (`pages_name_units`): the name leads to the unit, but an
  alias is not the identifier of the step (`alias_on_page`).
-/

namespace Questionnaire.Package

variable {p : Package} {d : Described} {u : CaptureUnit} {s : Step} {page : Page}

/-! ## The step discovered first -/

theorem head?_eraseDups {α : Type} [BEq α] (xs : List α) : xs.eraseDups.head? = xs.head? := by
  cases xs with
  | nil => rfl
  | cons x xs => rw [List.eraseDups_cons, List.head?_cons, List.head?_cons]

/-- A search enters the unit that it starts from first. -/
theorem head?_ids_graph (hd : d ∈ p.processed) : (p.graph d).ids.head? = some d.unit := by
  obtain ⟨u, hu, hid⟩ := knows_of_mem_processed hd
  rw [graph, RelationGraph.extract_eq_cons hu, RelationGraph.ids_cons, List.head?_cons]
  exact congrArg some hid

theorem head?_ids_discoveredSteps (p : Package) :
    (p.discoveredSteps.map (·.id)).head? = (p.processed.map (·.unit)).head? := by
  rw [map_id_discoveredSteps, head?_eraseDups, List.flatMap_map, List.head?_flatMap]
  cases h : p.processed with
  | nil => rfl
  | cons d ds =>
    have hd : d ∈ p.processed := h ▸ List.mem_cons_self
    rw [List.findSome?_cons, head?_ids_graph hd, List.map_cons, List.head?_cons]

theorem map_unit_processed (p : Package) :
    p.processed.map (·.unit) =
      (p.presentations.filter (·.captureBase = p.mainId) ++
        p.presentations.filter (·.captureBase ≠ p.mainId)).filterMap fun q =>
          p.index.canonicalId? q.captureBase := by
  rw [processed, List.map_filterMap]
  refine List.filterMap_congr fun q _ => ?_
  rw [Option.map_map]
  exact Option.map_id'

theorem canonicalId?_mainId (p : Package) : p.index.canonicalId? p.mainId = some p.mainId :=
  UnitIndex.canonicalId?_eq_self_iff.2 (UnitIndex.knows_of_mem List.mem_cons_self)

/-- The step discovered first is that of the main unit if some presentation names that unit by the
digest of its capture base. Otherwise it is that of the first presentation whose name leads to a
unit; if there is none, no step is discovered. -/
theorem id_first_step (p : Package) :
    p.discoveredSteps.head?.map (·.id) =
      if ∃ q ∈ p.presentations, q.captureBase = p.mainId then some p.mainId
      else p.presentations.findSome? fun q => p.index.canonicalId? q.captureBase := by
  rw [← List.head?_map, head?_ids_discoveredSteps, map_unit_processed, List.head?_filterMap,
    List.findSome?_append]
  split
  · next hnamed =>
    -- Presentations that name the main unit stand in front, and its digest always leads to it.
    obtain ⟨q, hq, hname⟩ := hnamed
    cases hmains : p.presentations.filter (·.captureBase = p.mainId) with
    | nil => exact absurd (decide_eq_true hname) (List.filter_eq_nil_iff.1 hmains q hq)
    | cons first mains =>
      have hfirst : first ∈ p.presentations.filter (·.captureBase = p.mainId) :=
        hmains ▸ List.mem_cons_self
      have hmain : first.captureBase = p.mainId := of_decide_eq_true (List.mem_filter.1 hfirst).2
      rw [List.findSome?_cons, hmain, canonicalId?_mainId, Option.some_or]
  · next hnone =>
    have hother (q : Presentation) (hq : q ∈ p.presentations) : q.captureBase ≠ p.mainId :=
      fun hname => hnone ⟨q, hq, hname⟩
    rw [List.filter_eq_nil_iff.2 fun q hq => by simp [hother q hq],
      List.filter_eq_self.2 fun q hq => by simp [hother q hq], List.findSome?_nil, Option.none_or]

/-- A package that presents persons and works by aliases: persons by that of their unit, works by
that of a second unit with the capture base of the main one. -/
def cataloguePackage : Package where
  bundle := {
    main := { captureBase := { digest := "work", attributes := [("title", .text "Text")] } }
    dependencies := [
      { digest := "author"
        captureBase := { digest := "person", attributes := [("name", .text "Text")] } },
      { digest := "catalogue", captureBase := { digest := "work" } }] }
  presentations := [
    { captureBase := "author"
      pages := [{ key := "about", order := [.single "name"] }]
      pageOrder := ["about"] },
    { captureBase := "catalogue"
      pages := [{ key := "titles", order := [.single "title"] }]
      pageOrder := ["titles"]
      title := SortedMap.empty.insert "eng" "Catalogue" }]

theorem steps_cataloguePackage :
    (cataloguePackage.discoveredSteps.map fun s =>
      (s.id, s.title.isSome, s.pages.map fun page => (page.key, page.captureUnit))) =
        [("person", false, [("about", "author")]), ("work", true, [("titles", "catalogue")])] := by
  cbv

/-- The second presentation is one of the main unit: its pages and its title go to the step of that
unit. But that step is discovered after the one of persons. -/
theorem alias_found_second :
    (∃ q ∈ cataloguePackage.presentations,
      cataloguePackage.index.canonicalId? q.captureBase = some cataloguePackage.mainId) ∧
    (cataloguePackage.discoveredSteps.map fun s => (s.id, s.title.isSome)) =
      [("person", false), ("work", true)] ∧
    cataloguePackage.mainId = "work" := by
  refine ⟨⟨cataloguePackage.presentations[1], List.getElem_mem _, by cbv⟩, ?_, rfl⟩
  have hsteps := congrArg (List.map fun s => (s.1, s.2.1)) steps_cataloguePackage
  rwa [List.map_map] at hsteps

/-! ## The unit that a page names -/

theorem captureUnit_of_contributes (h : p.Contributes u d page) :
    page.captureUnit = d.presentation.captureBase := by
  obtain ⟨definition, -, hlaid⟩ := Presentation.exists_definition_of_mem_materialize h.2
  rw [hlaid]
  rfl

theorem canonicalId?_of_contributes (h : p.Contributes u d page) :
    p.index.canonicalId? d.presentation.captureBase = some u.id := by
  obtain ⟨hd, hunit⟩ := List.mem_filter.1 (List.mem_of_find?_eq_some h.1)
  obtain ⟨q, -, hq⟩ := List.mem_filterMap.1 hd
  obtain ⟨id, hid, rfl⟩ := Option.map_eq_some_iff.1 hq
  rw [hid, ← of_decide_eq_true hunit]

/-- The name of a unit on a page leads to the unit of the step. It is the identifier of the step
exactly when it is the digest of some capture base. A presentation writes on the pages that it
contributes the name by which it calls its unit; only the page that stands in where none is
contributed always has the identifier. -/
theorem pages_name_units (hs : s ∈ p.discoveredSteps) :
    ∃ u, p.index.find? s.id = some u ∧ ∀ page ∈ s.pages,
      p.index.canonicalId page.captureUnit = .ok s.id ∧
      (page.captureUnit = s.id ↔
        ∃ v ∈ p.bundle.main :: p.bundle.dependencies, v.id = page.captureUnit) ∧
      (∀ d, p.Contributes u d page → page.captureUnit = d.presentation.captureBase) ∧
      ((∀ d, ¬ p.Contributes u d page) → page.captureUnit = s.id) := by
  obtain ⟨u, hu⟩ := isStepOf_of_mem hs
  have hself : p.index.canonicalId? s.id = some s.id :=
    UnitIndex.canonicalId?_eq_self_iff.2 ⟨u, hu.found, hu.id.symm⟩
  refine ⟨u, hu.found, fun page hpage => ?_⟩
  -- The stand-in page is made from the step, all others by a presentation of its unit.
  have hsource : (∃ d, p.Contributes u d page) ∨ page.captureUnit = s.id := by
    rw [hu.pages] at hpage
    split at hpage
    · rw [List.mem_singleton.1 hpage]
      exact .inr rfl
    · exact .inl (mem_presentedPages_iff.1 hpage)
  have hleads : p.index.canonicalId? page.captureUnit = some s.id := by
    rcases hsource with ⟨d, hd⟩ | hdefault
    · rw [captureUnit_of_contributes hd, canonicalId?_of_contributes hd, hu.id]
    · rwa [hdefault]
  refine ⟨UnitIndex.canonicalId_eq_ok_iff.2 hleads, ?_, fun d => captureUnit_of_contributes,
    fun hnone => ?_⟩
  · rw [UnitIndex.eq_iff_knows p.canonical_index hleads]
    exact UnitIndex.knows_build_iff
  · rcases hsource with ⟨d, hd⟩ | hdefault
    · exact absurd hd (hnone d)
    · exact hdefault

/-- The page on persons calls them by the alias. -/
theorem exists_person_cataloguePackage :
    ∃ s ∈ cataloguePackage.discoveredSteps, s.id = "person" ∧
      ∃ page ∈ s.pages, page.captureUnit = "author" := by
  have hfirst : ("person", false, [("about", "author")]) ∈
      cataloguePackage.discoveredSteps.map fun s =>
        (s.id, s.title.isSome, s.pages.map fun page => (page.key, page.captureUnit)) :=
    steps_cataloguePackage ▸ List.mem_cons_self
  obtain ⟨s, hs, heq⟩ := List.mem_map.1 hfirst
  obtain ⟨hid, -, hpages⟩ : s.id = "person" ∧ s.title.isSome = false ∧
      (s.pages.map fun page => (page.key, page.captureUnit)) = [("about", "author")] := by
    simpa using heq
  obtain ⟨page, hpage, hname⟩ := List.mem_map.1 (hpages ▸ List.mem_cons_self)
  exact ⟨s, hs, hid, page, hpage, congrArg Prod.snd hname⟩

/-- The alias on the page leads to persons. -/
theorem pages_name_units_author :
    ∃ s ∈ cataloguePackage.discoveredSteps, s.id = "person" ∧
      ∃ page ∈ s.pages, page.captureUnit = "author" ∧
        cataloguePackage.index.canonicalId "author" = .ok "person" := by
  obtain ⟨s, hs, hid, page, hpage, hunit⟩ := exists_person_cataloguePackage
  obtain ⟨u, -, hnames⟩ := pages_name_units hs
  have hleads := (hnames page hpage).1
  rw [hunit, hid] at hleads
  exact ⟨s, hs, hid, page, hpage, hunit, hleads⟩

/-- Not every page calls its unit by the identifier of the step. -/
theorem alias_on_page :
    ¬ ∀ s ∈ cataloguePackage.discoveredSteps, ∀ page ∈ s.pages, page.captureUnit = s.id := by
  intro hall
  obtain ⟨s, hs, hid, page, hpage, hunit⟩ := exists_person_cataloguePackage
  have hsame := hall s hs page hpage
  rw [hunit, hid] at hsame
  exact absurd hsame (by decide)

end Questionnaire.Package
