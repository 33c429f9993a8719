import Mathlib
import Questionnaire.Proofs.Step.Aliases

/-
  Packages with one more presentation.

  A presentation that is put behind the others, and is not one of the main unit, is taken last
  (`processed_withPresentation`). So it is the first one of a unit only where there was none, and
  the fields of the units that were presented before stay as they are. What it gives comes behind
  what there is: its units behind the units that were found (`ids_prefix_withPresentation`), its
  pages behind the pages that were laid out (`presentedPages_prefix`). Only the page that stands in
  where no presentation lays out any goes when the new one does.
-/

namespace Questionnaire.Package

/-- The package with one more presentation, behind the others. -/
def withPresentation (p : Package) (q : Presentation) : Package :=
  { p with presentations := p.presentations ++ [q] }

/-- What one more presentation leaves of a step. -/
structure Keeps (p : Package) (q : Presentation) (s s' : Step) : Prop where
  id : s'.id = s.id
  names : s'.names = s.names
  descriptions : s'.descriptions = s.descriptions
  title : s'.title = s.title
  parent : s'.parent = s.parent
  /-- Where some page is contributed by a presentation, all pages stay and new ones come behind. -/
  pages : (∃ page ∈ s.pages, ∃ u d, p.index.find? s.id = some u ∧ p.Contributes u d page) →
    s.pages <+: s'.pages
  /-- The step of a unit that the presentation does not describe is the same. -/
  untouched : p.index.canonicalId? q.captureBase ≠ some s.id → s' = s

variable {p : Package} {q : Presentation} {u : CaptureUnit} {s s' : Step} {d : Described}
  {id : String}

/-! ## The order of presentations -/

@[simp] theorem index_withPresentation (p : Package) (q : Presentation) :
    (p.withPresentation q).index = p.index := rfl

@[simp] theorem mainId_withPresentation (p : Package) (q : Presentation) :
    (p.withPresentation q).mainId = p.mainId := rfl

@[simp] theorem graph_withPresentation (p : Package) (q : Presentation) :
    (p.withPresentation q).graph = p.graph := rfl

/-- The presentation with the unit that it describes, if there is one. -/
def taken (p : Package) (q : Presentation) : List Described :=
  ((p.index.canonicalId? q.captureBase).map (Described.mk · q)).toList

theorem unit_of_mem_taken (h : d ∈ p.taken q) :
    p.index.canonicalId? q.captureBase = some d.unit := by
  unfold taken at h
  obtain ⟨id, hid, rfl⟩ := Option.map_eq_some_iff.1 (Option.mem_toList.1 h)
  exact hid

theorem filter_taken (h : p.index.canonicalId? q.captureBase ≠ some id) :
    (p.taken q).filter (·.unit = id) = [] := by
  rw [List.filter_eq_nil_iff]
  intro d hd hunit
  exact h (of_decide_eq_true hunit ▸ unit_of_mem_taken hd)

theorem find?_taken (h : p.index.canonicalId? q.captureBase ≠ some id) :
    (p.taken q).find? (·.unit = id) = none := by
  rw [← List.head?_filter, filter_taken h, List.head?_nil]

/-- A presentation that does not name the main unit is taken last. -/
theorem processed_withPresentation (hq : q.captureBase ≠ p.mainId) :
    (p.withPresentation q).processed = p.processed ++ p.taken q := by
  have hmain : [q].filter (·.captureBase = p.mainId) = [] := by simp [hq]
  have hother : [q].filter (·.captureBase ≠ p.mainId) = [q] := by simp [hq]
  unfold processed withPresentation
  change ((p.presentations ++ [q]).filter (·.captureBase = p.mainId) ++
    (p.presentations ++ [q]).filter (·.captureBase ≠ p.mainId)).filterMap _ = _
  rw [List.filter_append, hmain, List.append_nil, List.filter_append, hother, ← List.append_assoc,
    List.filterMap_append]
  congr 1

theorem ne_mainId_of_canonicalId? (hq : p.index.canonicalId? q.captureBase ≠ some p.mainId) :
    q.captureBase ≠ p.mainId := by
  intro heq
  exact hq (heq ▸ canonicalId?_mainId p)

/-- The fields of a unit stay as they are if the first presentation of the unit does. -/
theorem unitFields_of_find?
    (hfirst : (p.withPresentation q).processed.find? (·.unit = u.id) =
      p.processed.find? (·.unit = u.id)) :
    (p.withPresentation q).unitFields u = p.unitFields u := by
  unfold unitFields
  rw [hfirst, index_withPresentation]

/-! ## The parent of a step -/

/-- The parent of a step is that of the node of its unit in the first graph that holds it. -/
theorem exists_node_of_isStepOf (hs : p.IsStepOf (p.processed.map p.graph) u s) :
    ∃ n, (p.processed.map p.graph).findSome? (·.get? s.id) = some n ∧ s.parent = n.parent := by
  obtain ⟨before, g, after, n, hsplit, hbefore, hn, hid, hparent⟩ := hs.parent
  have hnone (h : RelationGraph) (hh : h ∈ before) : h.get? s.id = none := by
    rw [RelationGraph.get?, List.find?_eq_none]
    intro m hm hmid
    exact hbefore h hh (RelationGraph.mem_ids.2 ⟨m, hm, of_decide_eq_true hmid⟩)
  have hg : g ∈ p.processed.map p.graph := hsplit ▸ List.mem_append_right _ List.mem_cons_self
  obtain ⟨d, -, rfl⟩ := List.mem_map.1 hg
  have hnodup : (p.graph d).ids.Nodup := RelationGraph.nodup_ids _ _ _
  have hget : (p.graph d).get? s.id = some n := by
    rw [RelationGraph.get?, ← List.head?_filter, ← hid, filter_eq_singleton hnodup hn,
      List.head?_cons]
  refine ⟨n, ?_, hparent⟩
  rw [hsplit, List.findSome?_append, List.findSome?_eq_none_iff.2 hnone, Option.none_or,
    List.findSome?_cons, hget]

section Taken

-- What follows holds wherever the presentation is taken last.
variable (hlast : (p.withPresentation q).processed = p.processed ++ p.taken q)

include hlast

/-! ## What does not change -/

theorem find?_processed_of_presented (hd : d ∈ p.processed) (hunit : d.unit = id) :
    (p.withPresentation q).processed.find? (·.unit = id) = p.processed.find? (·.unit = id) := by
  have hsome : (p.processed.find? (·.unit = id)).isSome :=
    List.find?_isSome.2 ⟨d, hd, decide_eq_true hunit⟩
  obtain ⟨first, hfirst⟩ := Option.isSome_iff_exists.1 hsome
  rw [hlast, List.find?_append, hfirst, Option.some_or]

theorem find?_processed_of_other (h : p.index.canonicalId? q.captureBase ≠ some id) :
    (p.withPresentation q).processed.find? (·.unit = id) = p.processed.find? (·.unit = id) := by
  rw [hlast, List.find?_append, find?_taken h, Option.or_none]

theorem mainTitle_withPresentation (hq : p.index.canonicalId? q.captureBase ≠ some p.mainId) :
    (p.withPresentation q).mainTitle = p.mainTitle := by
  unfold mainTitle
  rw [mainId_withPresentation, find?_processed_of_other hlast hq]

/-- The units that the presentation leads to come behind the others. -/
theorem ids_prefix_withPresentation :
    p.discoveredSteps.map (·.id) <+: (p.withPresentation q).discoveredSteps.map (·.id) := by
  rw [map_id_discoveredSteps, map_id_discoveredSteps, graph_withPresentation, hlast,
    List.map_append, List.flatMap_append, List.eraseDups_append]
  exact List.prefix_append _ _

/-! ## Pages -/

theorem presentedPages_of_find?
    (hfirst : (p.withPresentation q).processed.find? (·.unit = u.id) =
      p.processed.find? (·.unit = u.id)) :
    (p.withPresentation q).presentedPages u =
      addPages (p.presentedPages u) (((p.taken q).filter (·.unit = u.id)).flatMap fun d =>
        d.presentation.materialize (p.unitFields u)) := by
  unfold presentedPages
  rw [unitFields_of_find? hfirst, addPages_firstOfKeys, hlast, List.filter_append,
    List.flatMap_append]

/-- Pages of a unit that was presented before come behind those that were laid out. -/
theorem presentedPages_prefix (h : p.presentedPages u ≠ []) :
    p.presentedPages u <+: (p.withPresentation q).presentedPages u := by
  obtain ⟨page, hpage⟩ := List.exists_mem_of_ne_nil _ h
  obtain ⟨d, hd, -⟩ := List.mem_flatMap.1 ((firstOfKeys_sublist _).mem hpage)
  obtain ⟨hmem, hunit⟩ := List.mem_filter.1 hd
  have hfirst := find?_processed_of_presented hlast hmem (of_decide_eq_true hunit)
  rw [presentedPages_of_find? hlast hfirst, addPages_eq]
  exact List.prefix_append _ _

/-- A unit that the presentation does not describe has the pages that it had. -/
theorem pages_of_other (hs : p.IsStepOf (p.processed.map p.graph) u s)
    (hs' : (p.withPresentation q).IsStepOf
      ((p.withPresentation q).processed.map (p.withPresentation q).graph) u s')
    (h : p.index.canonicalId? q.captureBase ≠ some u.id) : s'.pages = s.pages := by
  have hfirst := find?_processed_of_other hlast h
  have hpresented : (p.withPresentation q).presentedPages u = p.presentedPages u := by
    rw [presentedPages_of_find? hlast hfirst, filter_taken h]
    rfl
  rw [hs'.pages, hs.pages, hpresented, unitFields_of_find? hfirst, hs'.id, hs.id]

theorem parent_withPresentation (hs : p.IsStepOf (p.processed.map p.graph) u s)
    (hs' : (p.withPresentation q).IsStepOf
      ((p.withPresentation q).processed.map (p.withPresentation q).graph) u s')
    (hid : s'.id = s.id) : s'.parent = s.parent := by
  obtain ⟨n, hn, hparent⟩ := exists_node_of_isStepOf hs
  obtain ⟨n', hn', hparent'⟩ := exists_node_of_isStepOf hs'
  rw [graph_withPresentation, hlast, List.map_append, List.findSome?_append, hid, hn,
    Option.some_or] at hn'
  rw [hparent', hparent, Option.some.inj hn']

end Taken

/-! ## The steps -/

theorem keeps_of_isStepOf (hq : p.index.canonicalId? q.captureBase ≠ some p.mainId)
    (hs : s ∈ p.discoveredSteps) (hs' : s' ∈ (p.withPresentation q).discoveredSteps)
    (hid : s'.id = s.id) : p.Keeps q s s' := by
  have hlast := processed_withPresentation (ne_mainId_of_canonicalId? hq)
  obtain ⟨u, hu⟩ := isStepOf_of_mem hs
  obtain ⟨u', hu'⟩ := isStepOf_of_mem hs'
  obtain rfl : u' = u := by
    have hfound := hu'.found
    rw [index_withPresentation, hid, hu.found] at hfound
    exact (Option.some.inj hfound).symm
  have htexts := hu'.texts.unique hu.texts
  have hnames : s'.names = s.names := congrArg StepTexts.names htexts
  have hdescriptions : s'.descriptions = s.descriptions := congrArg StepTexts.descriptions htexts
  have htitle : s'.title = s.title := by
    rw [hu'.title, hu.title, hid, mainTitle_withPresentation hlast hq, mainId_withPresentation]
  have hparent := parent_withPresentation hlast hu hu' hid
  refine ⟨hid, hnames, hdescriptions, htitle, hparent, ?_, ?_⟩
  · rintro ⟨page, -, v, d, hv, hd⟩
    obtain rfl : v = u' := Option.some.inj (hv.symm.trans hu.found)
    have hne : p.presentedPages v ≠ [] :=
      List.ne_nil_of_mem (mem_presentedPages_iff.2 ⟨d, hd⟩)
    have hprefix := presentedPages_prefix hlast hne
    have hne' : (p.withPresentation q).presentedPages v ≠ [] := by
      intro hnil
      exact hne (List.prefix_nil.1 (hnil ▸ hprefix))
    rw [hu.pages, if_neg hne, hu'.pages, if_neg hne']
    exact hprefix
  · intro hother
    have hpages := pages_of_other hlast hu hu' (hu.id ▸ hother)
    obtain ⟨id, names, descriptions, title, parent, pages⟩ := s
    obtain ⟨id', names', descriptions', title', parent', pages'⟩ := s'
    congr

/-- Shipping one more presentation, not of the main unit, disturbs no page that a presentation
contributed. The steps that were discovered come first, in the order in which they were, and
nothing of them changes but that pages may come behind those that presentations contributed, or in
the place of the page that stood in for them. -/
theorem keeps_withPresentation (p : Package) (q : Presentation)
    (hq : p.index.canonicalId? q.captureBase ≠ some p.mainId) :
    p.discoveredSteps.map (·.id) <+: (p.withPresentation q).discoveredSteps.map (·.id) ∧
    ∀ (i : Nat) (s : Step), p.discoveredSteps[i]? = some s →
      ∃ s', (p.withPresentation q).discoveredSteps[i]? = some s' ∧ p.Keeps q s s' := by
  have hlast := processed_withPresentation (ne_mainId_of_canonicalId? hq)
  have hids := ids_prefix_withPresentation hlast
  refine ⟨hids, ?_⟩
  intro i s hs
  have hid : (p.discoveredSteps.map (·.id))[i]? = some s.id := by
    rw [List.getElem?_map, hs, Option.map_some]
  have hid' : ((p.withPresentation q).discoveredSteps.map (·.id))[i]? = some s.id := by
    obtain ⟨added, hadded⟩ := hids
    obtain ⟨hlt, -⟩ := List.getElem?_eq_some_iff.1 hid
    rw [← hadded, List.getElem?_append_left hlt, hid]
  rw [List.getElem?_map] at hid'
  obtain ⟨s', hs', hsame⟩ := Option.map_eq_some_iff.1 hid'
  exact ⟨s', hs', keeps_of_isStepOf hq (List.mem_of_getElem? hs) (List.mem_of_getElem? hs') hsame⟩

/-- A package that presents works and, by an alias, persons. -/
def personsPackage : Package where
  bundle := {
    main := {
      captureBase := {
        digest := "work"
        attributes := [("title", .text "Text"), ("author", .text "refs:person")] } }
    dependencies := [
      { digest := "author"
        captureBase := {
          digest := "person"
          attributes := [("name", .text "Text"), ("employer", .text "refs:firm")] } },
      { captureBase := { digest := "firm", attributes := [("name", .text "Text")] } }] }
  presentations := [
    { captureBase := "author"
      pages := [{ key := "names", order := [.single "name"] }]
      pageOrder := ["names"] },
    { captureBase := "work"
      pages := [{ key := "about", order := [.single "title", .single "author"] }]
      pageOrder := ["about"] }]

/-- A presentation of persons with a page that they have and one that they do not have. -/
def employersPresentation : Presentation where
  captureBase := "person"
  pages := [
    { key := "names", order := [.single "employer"] },
    { key := "employers", order := [.single "employer"] }]
  pageOrder := ["employers", "names"]

theorem canonicalId?_employersPresentation :
    personsPackage.index.canonicalId? employersPresentation.captureBase ≠
      some personsPackage.mainId := by
  have hperson : personsPackage.index.canonicalId? employersPresentation.captureBase =
      some "person" := by cbv
  have hmain : personsPackage.mainId = "work" := rfl
  rw [hperson, hmain]
  decide

theorem step_personsPackage :
    (personsPackage.discoveredSteps[1]?.map fun s => (s.id, s.pages.map (·.key))) =
      some ("person", ["names"]) := by cbv

theorem step_personsPackage_employers :
    ((personsPackage.withPresentation employersPresentation).discoveredSteps[1]?.map
      fun s => s.pages.map (·.key)) = some ["names", "employers"] := by cbv

/-- The step of persons keeps its page, and has the other page of the presentation behind it. -/
theorem keeps_withPresentation_employers :
    personsPackage.index.canonicalId? employersPresentation.captureBase ≠
      some personsPackage.mainId ∧
    ∃ s s', personsPackage.discoveredSteps[1]? = some s ∧
      (personsPackage.withPresentation employersPresentation).discoveredSteps[1]? = some s' ∧
      s.id = "person" ∧ s.pages.map (·.key) = ["names"] ∧
      s'.pages.map (·.key) = ["names", "employers"] ∧
      personsPackage.Keeps employersPresentation s s' := by
  obtain ⟨s, hs, hold⟩ := Option.map_eq_some_iff.1 step_personsPackage
  obtain ⟨t, ht, hnew⟩ := Option.map_eq_some_iff.1 step_personsPackage_employers
  have hkeeps := keeps_withPresentation personsPackage employersPresentation
    canonicalId?_employersPresentation
  obtain ⟨s', hs', hkept⟩ := hkeeps.2 1 s hs
  obtain rfl : s' = t := Option.some.inj (hs'.symm.trans ht)
  exact ⟨canonicalId?_employersPresentation, s, s', hs, hs', congrArg Prod.fst hold,
    congrArg Prod.snd hold, hnew, hkept⟩

end Questionnaire.Package
