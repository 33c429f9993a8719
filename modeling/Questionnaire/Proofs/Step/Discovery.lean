import Mathlib.Data.List.Forall2
import Questionnaire.Proofs.Overlay.Projection
import Questionnaire.Proofs.Reference.DepthFirst
import Questionnaire.Proofs.Step.Assembly
import Questionnaire.Step.Compile

/-
  What the steps of a package are, without following how they are collected.

  A package is compiled presentation by presentation, and most units are met several times.
  `discoveredSteps_correct` says what comes out: one step for each unit that the depth-first
  searches from the presented units find, in the order of first discovery, and `IsStepOf` says
  what such a step holds. That the fields of a unit do not depend on the graph it is met in is
  `fields_eq`; that presentations of unknown units leave no trace is `drafts_eq`.
-/

namespace Questionnaire

open Relation

/-! ## What a package declares -/

namespace Package

/-- The units of a package by identifier. -/
def index (p : Package) : UnitIndex := UnitIndex.ofBundle p.bundle

/-- The presentations of known units, each with its unit, those that name the main unit first. -/
def processed (p : Package) : List Described :=
  (p.presentations.filter (·.captureBase = p.mainId) ++
    p.presentations.filter (·.captureBase ≠ p.mainId)).filterMap fun q =>
      (p.index.canonicalId? q.captureBase).map (⟨·, q⟩)

/-- The fields of a unit, one for each attribute, with the hints of the first presentation that
describes the unit. -/
def unitFields (p : Package) (u : CaptureUnit) : List Field :=
  u.captureBase.attributes.map fun a =>
    Field.synthesize a.1 (OverlayProjection.ofUnit u)
      ((p.processed.find? (·.unit = u.id)).bind (·.presentation.hint? a.1))
      (SortedMap.ofList (u.links p.index))

/-- The pages that the presentations of a unit lay out, the first of each key. -/
def presentedPages (p : Package) (u : CaptureUnit) : List Page :=
  firstOfKeys ((p.processed.filter (·.unit = u.id)).flatMap fun d =>
    d.presentation.materialize (p.unitFields u))

/-- The title of the first presentation of the main unit. -/
def mainTitle (p : Package) : LanguageMap String :=
  ((p.processed.find? (·.unit = p.mainId)).map (·.presentation.title)).getD ∅

/-- A step is made from a unit, which the graphs found in the order given. -/
structure IsStepOf (p : Package) (graphs : List RelationGraph) (u : CaptureUnit) (s : Step) :
    Prop where
  found : p.index.find? s.id = some u
  id : s.id = u.id
  /-- In every language the last meta overlay of the unit names and describes the step. -/
  texts : StepTexts.TakenFrom ⟨s.names, s.descriptions⟩ u.overlays.metas
  title : s.title = if s.id = p.mainId && !p.mainTitle.isEmpty then some p.mainTitle else none
  /-- The parent is that of the first graph that holds the unit. -/
  parent : ∃ before g after n, graphs = before ++ g :: after ∧ (∀ h ∈ before, s.id ∉ h.ids) ∧
    n ∈ g ∧ n.id = s.id ∧ s.parent = n.parent
  pages : s.pages = if p.presentedPages u = [] then [Page.default s.id (p.unitFields u)]
    else p.presentedPages u
  /-- The page that stands in for presented ones has all attributes of the unit. -/
  attributes : p.presentedPages u = [] →
    s.fields.map (·.id) = u.captureBase.attributes.map (·.1)

theorem canonical_index (p : Package) : p.index.Canonical := UnitIndex.canonical_build _ _

variable {p : Package} {d : Described} {n : RelationNode} {u : CaptureUnit} {id : String}

/-! ## Presentations of unknown units -/

theorem processed_eq (p : Package) :
    p.processed = p.described.filter fun d => (p.index.find? d.unit).isSome := by
  have hlist (qs : List Presentation) :
      qs.filterMap (fun q => (p.index.canonicalId? q.captureBase).map (Described.mk · q)) =
        (qs.map fun q => ⟨(p.index.canonicalId? q.captureBase).getD q.captureBase, q⟩).filter
          fun d => (p.index.find? d.unit).isSome := by
    rw [← List.filterMap_eq_filter, List.filterMap_map]
    refine List.filterMap_congr fun q _ => ?_
    cases hq : p.index.canonicalId? q.captureBase with
    | none =>
      have hnone : p.index.find? q.captureBase = none := Option.map_eq_none_iff.1 hq
      simp [Option.guard, hq, hnone]
    | some id =>
      obtain ⟨u, hu, -⟩ := UnitIndex.knows_of_canonicalId? p.canonical_index hq
      simp [Option.guard, hq, hu]
  simp only [processed, ne_eq, decide_not]
  exact hlist _

theorem knows_of_mem_processed (h : d ∈ p.processed) : p.index.Knows d.unit := by
  obtain ⟨q, -, hq⟩ := List.mem_filterMap.1 h
  obtain ⟨id, hid, rfl⟩ := Option.map_eq_some_iff.1 hq
  exact UnitIndex.knows_of_canonicalId? p.canonical_index hid

theorem find?_processed (h : p.index.find? id = some u) :
    p.processed.find? (·.unit = id) = p.described.find? (·.unit = id) := by
  rw [processed_eq, List.find?_filter]
  congr 1
  funext d
  refine decide_eq_decide.2 ⟨fun hd => by simpa using hd.2, ?_⟩
  rintro rfl
  simp [h]

theorem title_compilation (p : Package) : p.compilation.title = p.mainTitle := by
  have hmain : p.index.find? p.mainId = some p.bundle.main := if_pos rfl
  rw [mainTitle, find?_processed hmain]
  rfl

theorem flatMap_filter {α β : Type} (keep : α → Bool) (f : α → List β) (xs : List α) :
    (xs.filter keep).flatMap f = xs.flatMap fun x => if keep x then f x else [] := by
  induction xs with
  | nil => rfl
  | cons x xs ih =>
    rw [List.flatMap_cons, ← ih, List.filter_cons]
    split <;> rfl

/-- The graph of a presentation of a unit. -/
def graph (p : Package) (d : Described) : RelationGraph := RelationGraph.extract p.index d.unit

theorem drafts_eq (p : Package) :
    p.compilation.drafts = p.processed.flatMap fun d => (p.graph d).map (p.compilation.draft d) := by
  rw [processed_eq, flatMap_filter]
  refine List.flatMap_congr fun d _ => ?_
  split
  · rfl
  · next hd =>
    have hnone : p.index.find? d.unit = none := by simpa using hd
    change (RelationGraph.extract p.index d.unit).map _ = []
    rw [RelationGraph.extract_unknown hnone, List.map_nil]

/-! ## The fields of a unit, whatever graph it is met in -/

theorem node_graph (hd : d ∈ p.processed) (hn : n ∈ p.graph d) :
    ∃ u parent, p.index.find? n.id = some u ∧ n = u.node p.index parent :=
  RelationGraph.exists_unit p.canonical_index
    (RelationGraph.knownRequests_root (knows_of_mem_processed hd)) hn

theorem unitOf_eq (h : p.index.find? n.id = some u) : p.compilation.unitOf n = u := by
  rw [Compilation.unitOf, show p.compilation.index = p.index from rfl, h, Option.getD_some]

theorem fields_eq (hd : d ∈ p.processed) (hn : n ∈ p.graph d)
    (hu : p.index.find? n.id = some u) : p.compilation.fields n = p.unitFields u := by
  obtain ⟨v, parent, hv, hnode⟩ := node_graph hd hn
  rw [hu] at hv
  cases hv
  have hid : n.id = u.id := by rw [hnode]; rfl
  have hhint (name : String) : p.compilation.hint? n.id name =
      (p.processed.find? (·.unit = u.id)).bind (·.presentation.hint? name) := by
    rw [hid, find?_processed (hid ▸ hu)]
    rfl
  simp only [Compilation.fields, unitOf_eq hu, hhint]
  rw [unitFields, hnode]
  exact List.map_map

theorem ids_unitFields (p : Package) (u : CaptureUnit) :
    (p.unitFields u).map (·.id) = u.captureBase.attributes.map (·.1) := by
  rw [unitFields, List.map_map]
  rfl

/-! ## The drafts of a unit -/

theorem ids_drafts (p : Package) :
    p.compilation.drafts.map (·.id) = (p.processed.map p.graph).flatMap RelationGraph.ids := by
  rw [drafts_eq, List.map_flatMap, List.flatMap_map]
  refine List.flatMap_congr fun d _ => ?_
  rw [List.map_map]
  rfl

theorem mem_ids_graphs (p : Package) (id : String) :
    id ∈ (p.processed.map p.graph).flatMap RelationGraph.ids ↔
      ∃ d ∈ p.processed, ReflTransGen (RelationGraph.Refers p.index) d.unit id := by
  simp only [List.flatMap_map, List.mem_flatMap]
  refine exists_congr fun d => and_congr_right fun hd => ?_
  exact RelationGraph.mem_ids_extract p.canonical_index (knows_of_mem_processed hd)

theorem filter_eq_singleton {g : RelationGraph} (hg : g.ids.Nodup) (hn : n ∈ g) :
    g.filter (·.id = n.id) = [n] := by
  induction g with
  | nil => cases hn
  | cons m g ih =>
    obtain ⟨hm, hrest⟩ := List.nodup_cons.1 hg
    rcases List.mem_cons.1 hn with rfl | hn
    · rw [List.filter_cons_of_pos (by simp), List.filter_eq_nil_iff.2 fun k hk hid =>
        hm (RelationGraph.mem_ids.2 ⟨k, hk, of_decide_eq_true hid⟩)]
    · have hne : m.id ≠ n.id := fun hid => hm (RelationGraph.mem_ids.2 ⟨n, hn, hid.symm⟩)
      rw [List.filter_cons_of_neg (by simpa using hne), ih hrest hn]

/-- A presentation lays out pages for the unit that it describes and for no other. -/
theorem pages_drafts (hd : d ∈ p.processed) (hu : p.index.find? u.id = some u) :
    (((p.graph d).map (p.compilation.draft d)).filter (·.id = u.id)).flatMap (·.pages) =
      if d.unit = u.id then d.presentation.materialize (p.unitFields u) else [] := by
  split
  · next hunit =>
    have hroot : u.id ∈ (p.graph d).ids :=
      (RelationGraph.mem_ids_extract p.canonical_index (knows_of_mem_processed hd)).2 (hunit ▸ .refl)
    obtain ⟨n, hn, hid⟩ := RelationGraph.mem_ids.1 hroot
    have hone : (p.graph d).filter (·.id = u.id) = [n] :=
      hid ▸ filter_eq_singleton (RelationGraph.nodup_ids _ _ _) hn
    calc (((p.graph d).map (p.compilation.draft d)).filter (·.id = u.id)).flatMap (·.pages)
      _ = (((p.graph d).filter (·.id = u.id)).map (p.compilation.draft d)).flatMap (·.pages) := by
        rw [List.filter_map]
        rfl
      _ = (p.compilation.draft d n).pages := by simp [hone]
      _ = d.presentation.materialize (p.unitFields u) := by
        rw [Compilation.draft, if_pos (hid.trans hunit.symm), fields_eq hd hn (hid ▸ hu)]
  · next hunit =>
    refine List.flatMap_eq_nil_iff.2 fun e he => ?_
    obtain ⟨hmem, hid⟩ := List.mem_filter.1 he
    obtain ⟨n, hn, rfl⟩ := List.mem_map.1 hmem
    have hid : n.id = u.id := of_decide_eq_true hid
    exact if_neg fun h => hunit (h.symm.trans hid)

theorem flatMap_pages_drafts (hu : p.index.find? u.id = some u) :
    firstOfKeys ((p.compilation.drafts.filter (·.id = u.id)).flatMap (·.pages)) =
      p.presentedPages u := by
  rw [drafts_eq, List.filter_flatMap, List.flatMap_assoc, presentedPages, flatMap_filter,
    List.flatMap_congr fun d hd => pages_drafts hd hu]
  simp only [decide_eq_true_eq]

/-- The first draft of a unit comes from the first graph that holds it. -/
theorem find?_drafts {e : StepDraft} (h : p.compilation.drafts.find? (·.id = id) = some e) :
    ∃ before d after n, p.processed = before ++ d :: after ∧ (∀ b ∈ before, id ∉ (p.graph b).ids) ∧
      n ∈ p.graph d ∧ n.id = id ∧ e = p.compilation.draft d n := by
  rw [drafts_eq, List.find?_flatMap] at h
  obtain ⟨before, d, after, hsplit, hd, hbefore⟩ := List.findSome?_eq_some_iff.1 h
  rw [List.find?_map] at hd
  obtain ⟨n, hn, rfl⟩ := Option.map_eq_some_iff.1 hd
  have hid : n.id = id := by
    have hkept := List.find?_some hn
    exact of_decide_eq_true hkept
  refine ⟨before, d, after, n, hsplit, fun b hb hmem => ?_, List.mem_of_find?_eq_some hn, hid, rfl⟩
  obtain ⟨m, hm, hmid⟩ := RelationGraph.mem_ids.1 hmem
  have hnone := List.find?_eq_none.1 (hbefore b hb) _ (List.mem_map_of_mem hm)
  exact hnone (decide_eq_true hmid)

/-! ## The steps -/

theorem id_withDefaultPage (c : Compilation) (s : Step) : (c.withDefaultPage s).id = s.id := by
  unfold Compilation.withDefaultPage
  split
  · split <;> rfl
  · rfl

theorem map_id_discoveredSteps (p : Package) :
    p.discoveredSteps.map (·.id) =
      ((p.processed.map p.graph).flatMap RelationGraph.ids).eraseDups := by
  have hid : (·.id) ∘ p.compilation.withDefaultPage = (·.id) :=
    funext fun s => id_withDefaultPage p.compilation s
  rw [discoveredSteps, Compilation.steps, List.map_map, hid, assembleSteps_eq,
    StepAssembly.map_id_map_stepOf, ids_drafts]

theorem nodup_ids_discoveredSteps (p : Package) : (p.discoveredSteps.map (·.id)).Nodup := by
  rw [map_id_discoveredSteps]
  exact StepOrder.nodup_eraseDups _

theorem mem_map_id_discoveredSteps :
    id ∈ p.discoveredSteps.map (·.id) ↔
      ∃ d ∈ p.processed, ReflTransGen (RelationGraph.Refers p.index) d.unit id := by
  rw [map_id_discoveredSteps, List.mem_eraseDups, mem_ids_graphs]

theorem exists_node? (hd : d ∈ p.processed) (hn : n ∈ p.graph d) :
    ∃ m, p.compilation.node? n.id = some m ∧ m.id = n.id ∧ ∃ e ∈ p.processed, m ∈ p.graph e := by
  have hdescribed : d ∈ p.described := (List.mem_filter.1 (processed_eq p ▸ hd)).1
  have hsome : ((p.graph d).get? n.id).isSome :=
    List.find?_isSome.2 ⟨n, hn, decide_eq_true rfl⟩
  have hnode : (p.compilation.node? n.id).isSome :=
    List.findSome?_isSome_iff.2 ⟨d, hdescribed, hsome⟩
  obtain ⟨m, hm⟩ := Option.isSome_iff_exists.1 hnode
  obtain ⟨e, he, hget⟩ := List.exists_of_findSome?_eq_some hm
  have hmem : m ∈ p.graph e := List.mem_of_find?_eq_some hget
  have hknown : (p.index.find? e.unit).isSome := by
    rw [Option.isSome_iff_ne_none]
    intro hnone
    rw [graph, RelationGraph.extract_unknown hnone] at hmem
    cases hmem
  have hid := List.find?_some hget
  exact ⟨m, hm, of_decide_eq_true hid, e, processed_eq p ▸ List.mem_filter.2 ⟨he, hknown⟩, hmem⟩

theorem withDefaultPage_eq {s : Step} (hd : d ∈ p.processed) (hn : n ∈ p.graph d)
    (hs : s.id = n.id) (hu : p.index.find? n.id = some u) :
    p.compilation.withDefaultPage s =
      { s with pages := if s.pages = [] then [Page.default s.id (p.unitFields u)] else s.pages } := by
  obtain ⟨m, hm, hmid, e, he, hme⟩ := exists_node? hd hn
  have hfields : p.compilation.fields m = p.unitFields u := fields_eq he hme (hmid ▸ hu)
  simp only [Compilation.withDefaultPage, hs, hm, hfields, List.isEmpty_iff]
  split
  · rfl
  · rw [← hs]

theorem isStepOf_of_mem {s : Step} (h : s ∈ p.discoveredSteps) :
    ∃ u, p.IsStepOf (p.processed.map p.graph) u s := by
  rw [discoveredSteps, Compilation.steps, assembleSteps_eq, List.map_map] at h
  obtain ⟨id, hid, rfl⟩ := List.mem_map.1 h
  obtain ⟨first, hfirst⟩ : ∃ e, p.compilation.drafts.find? (·.id = id) = some e := by
    obtain ⟨e, he, heid⟩ := List.mem_map.1 (List.mem_eraseDups.1 hid)
    exact Option.isSome_iff_exists.1 (List.find?_isSome.2 ⟨e, he, decide_eq_true heid⟩)
  -- Names, parent and title are those of the first draft; all drafts of the unit give pages.
  obtain ⟨before, d, after, n, hsplit, hbefore, hn, rfl, rfl⟩ := find?_drafts hfirst
  have hd : d ∈ p.processed := hsplit ▸ List.mem_append_right _ List.mem_cons_self
  obtain ⟨u, parent, hu, hnode⟩ := node_graph hd hn
  have hnu : n.id = u.id := by rw [hnode]; rfl
  let a : StepAssembly := { main := p.compilation.main, title := p.compilation.title }
  have hstep : a.stepOf p.compilation.drafts n.id =
      { a.opened (p.compilation.draft d n) with pages := p.presentedPages u } := by
    rw [StepAssembly.stepOf, hfirst, Option.getD_some, hnu, flatMap_pages_drafts (hnu ▸ hu)]
  have htexts : (StepTexts.ofUnit (p.compilation.unitOf n)).TakenFrom u.overlays.metas := by
    rw [unitOf_eq hu]
    exact StepTexts.takenFrom_ofUnit u
  rw [Function.comp_apply, withDefaultPage_eq hd hn (StepAssembly.id_stepOf ..) hu, hstep]
  exact ⟨u, {
    found := hu
    id := hnu
    texts := htexts
    title := by rw [← title_compilation]; rfl
    parent := ⟨before.map p.graph, p.graph d, after.map p.graph, n, by simp [hsplit],
      fun g hg => by obtain ⟨b, hb, rfl⟩ := List.mem_map.1 hg; exact hbefore b hb, hn, rfl, rfl⟩
    pages := rfl
    attributes := fun hnil => by
      simp only [Step.fields, if_pos hnil, List.flatMap_singleton, Page.fields_default,
        ids_unitFields] }⟩

theorem pages_ne_nil {graphs : List RelationGraph} {s : Step} (h : p.IsStepOf graphs u s) :
    s.pages ≠ [] := by
  rw [h.pages]
  split
  · exact List.cons_ne_nil _ _
  · assumption

theorem nodup_keys_pages {graphs : List RelationGraph} {s : Step} (h : p.IsStepOf graphs u s) :
    (s.pages.map (·.key)).Nodup := by
  rw [h.pages]
  split
  · exact List.nodup_singleton _
  · exact nodup_keys_firstOfKeys _

/-- The steps of a package are the units that can be reached from the presented ones, in the order
in which the depth-first searches find them. -/
theorem discoveredSteps_correct (p : Package) :
    ∃ graphs : List RelationGraph,
      List.Forall₂ (fun d g => ∀ g', RelationGraph.Visits p.index ∅ [(d.unit, none)] g' ↔ g' = g)
        p.processed graphs ∧
      p.discoveredSteps.map (·.id) = (graphs.flatMap RelationGraph.ids).eraseDups ∧
      (∀ id, id ∈ p.discoveredSteps.map (·.id) ↔
        ∃ d ∈ p.processed, ReflTransGen (RelationGraph.Refers p.index) d.unit id) ∧
      (∀ s ∈ p.discoveredSteps, ∃ u, p.IsStepOf graphs u s) ∧
      (p.discoveredSteps.map (·.id)).Nodup ∧
      ∀ s ∈ p.discoveredSteps, s.pages ≠ [] ∧ (s.pages.map (·.key)).Nodup := by
  refine ⟨p.processed.map p.graph, ?_, map_id_discoveredSteps p,
    fun id => mem_map_id_discoveredSteps, fun s hs => isStepOf_of_mem hs,
    nodup_ids_discoveredSteps p, fun s hs => ?_⟩
  · rw [List.forall₂_map_right_iff, List.forall₂_same]
    have hvisits (d : Described) :
        RelationGraph.Visits p.index ∅ [(d.unit, none)] (p.graph d) :=
      RelationGraph.visits_extract p.canonical_index d.unit
    exact fun d _ g => ⟨fun hg => hg.unique (hvisits d), fun hg => hg ▸ hvisits d⟩
  · obtain ⟨u, hu⟩ := isStepOf_of_mem hs
    exact ⟨pages_ne_nil hu, nodup_keys_pages hu⟩

end Package
end Questionnaire
