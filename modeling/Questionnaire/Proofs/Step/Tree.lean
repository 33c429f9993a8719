import Mathlib
import Questionnaire.Proofs.Json.Values
import Questionnaire.Proofs.Step.Depth

/-
  What stands in the tree of a form.

  A branch of the tree uses up the steps it goes through, but what can be reached at all can be
  reached without coming back to where the way starts (`reach_without`). So the tree below a step
  holds all that can be reached from it (`mem_ids_grow`). The trees of a form start at its parent
  steps, and away from circles every step can be reached from one of these
  (`exists_parent_or_onOrBelowCircle`). Steps on circles that no parent step leads to are left out
  (`persons_left_out`).
-/

namespace Questionnaire

open Relation

/-- A step references another one of a list. -/
def References (steps : List Step) (s t : Step) : Prop := t ∈ steps ∧ s.referencesStep t.id

namespace StepTree

/-! ## The steps in a tree -/

mutual

/-- The steps in a tree, as often as they stand in it. -/
def ids : StepTree → List String
  | node id children => id :: idsOfList children

/-- The steps in trees, as often as they stand in them. -/
def idsOfList : List StepTree → List String
  | [] => []
  | t :: ts => t.ids ++ idsOfList ts

end

theorem mem_idsOfList {ts : List StepTree} {id : String} :
    id ∈ idsOfList ts ↔ ∃ t ∈ ts, id ∈ t.ids := by
  induction ts with
  | nil => simp [idsOfList]
  | cons t ts ih => rw [idsOfList, List.mem_append, ih, List.exists_mem_cons_iff]

theorem mem_ids_iff {t : StepTree} {id : String} :
    id ∈ t.ids ↔ id = t.id ∨ ∃ c ∈ t.children, id ∈ c.ids := by
  cases t
  rw [ids, List.mem_cons, mem_idsOfList]
  rfl

section Grow

variable {free : List Step} {s t c : Step} {id : String}

theorem nodup_ids_without (h : (free.map (·.id)).Nodup) (id : String) :
    ((without free id).map (·.id)).Nodup := h.sublist (List.filter_sublist.map _)

theorem find?_iff (h : (free.map (·.id)).Nodup) :
    free.find? (·.id = id) = some c ↔ c ∈ free ∧ c.id = id := by
  refine ⟨fun hfind => ⟨List.mem_of_find?_eq_some hfind, by simpa using List.find?_some hfind⟩, ?_⟩
  rintro ⟨hc, rfl⟩
  exact Json.find?_key_of_mem h hc

theorem id_grow (free : List Step) (s : Step) : (grow free s).id = s.id := by
  rw [grow_eq]
  rfl

theorem children_grow (free : List Step) (s : Step) :
    (grow free s).children = s.targets.eraseDups.filterMap fun id =>
      (free.find? (·.id = id)).map (grow (without free id)) := by
  rw [grow_eq]
  rfl

/-- Below a step stand the trees of the steps that it references. -/
theorem mem_children_grow (h : (free.map (·.id)).Nodup) {t : StepTree} :
    t ∈ (grow free s).children ↔ ∃ c, References free s c ∧ grow (without free c.id) c = t := by
  rw [children_grow, List.mem_filterMap]
  constructor
  · rintro ⟨target, htarget, hgrown⟩
    obtain ⟨c, hc, rfl⟩ := Option.map_eq_some_iff.1 hgrown
    obtain ⟨hmem, rfl⟩ := (find?_iff h).1 hc
    exact ⟨c, ⟨hmem, List.contains_iff_mem.2 (List.mem_eraseDups.1 htarget)⟩, rfl⟩
  · rintro ⟨c, ⟨hmem, href⟩, rfl⟩
    refine ⟨c.id, List.mem_eraseDups.2 (List.contains_iff_mem.1 href), ?_⟩
    rw [(find?_iff h).2 ⟨hmem, rfl⟩, Option.map_some]

theorem mem_ids_grow_iff_below (h : (free.map (·.id)).Nodup) :
    id ∈ (grow free s).ids ↔
      id = s.id ∨ ∃ c, References free s c ∧ id ∈ (grow (without free c.id) c).ids := by
  rw [mem_ids_iff, id_grow]
  simp only [mem_children_grow h, exists_exists_and_eq_and]

/-- Coming back to the start of a way is never needed. -/
theorem reach_without (h : (free.map (·.id)).Nodup) (hc : c ∈ free)
    (hreach : ReflTransGen (References free) c t) :
    ReflTransGen (References (without free c.id)) c t := by
  induction hreach with
  | refl => exact .refl
  | @tail b d _ href ih =>
    by_cases hid : d.id = c.id
    -- Back at the start, the way so far can be left out.
    · rw [List.inj_on_of_nodup_map h href.1 hc hid]
    · exact ih.tail ⟨List.mem_filter.2 ⟨href.1, by simpa using hid⟩, href.2⟩

theorem reach_of_without (hreach : ReflTransGen (References (without free c.id)) s t) :
    ReflTransGen (References free) s t :=
  ReflTransGen.mono (fun _ _ href => ⟨List.mem_of_mem_filter href.1, href.2⟩) _ _ hreach

/-- The tree below a step holds the steps that can be reached from it. -/
theorem mem_ids_grow (h : (free.map (·.id)).Nodup) :
    id ∈ (grow free s).ids ↔ ∃ t, t.id = id ∧ ReflTransGen (References free) s t := by
  induction free, s using grow.induct with
  | case1 free s ih =>
    rw [mem_ids_grow_iff_below h]
    have hbelow {c : Step} (href : References free s c) :
        id ∈ (grow (without free c.id) c).ids ↔
          ∃ t, t.id = id ∧ ReflTransGen (References (without free c.id)) c t :=
      ih c.id c ((find?_iff h).2 ⟨href.1, rfl⟩) (nodup_ids_without h c.id)
    constructor
    · rintro (rfl | ⟨c, href, hid⟩)
      · exact ⟨s, rfl, .refl⟩
      · obtain ⟨t, ht, hreach⟩ := (hbelow href).1 hid
        exact ⟨t, ht, .head href (reach_of_without hreach)⟩
    · rintro ⟨t, rfl, hreach⟩
      rcases hreach.cases_head with rfl | ⟨c, href, hreach⟩
      · exact .inl rfl
      · exact .inr ⟨c, href, (hbelow href).2 ⟨t, rfl, reach_without h href.1 hreach⟩⟩

end Grow

/-! ## The trees of a form -/

section Steps

variable {steps : List Step} {s t : Step}

/-- The steps that the trees start from. -/
def roots (steps : List Step) : List Step :=
  if (parentSteps steps).isEmpty then steps.take 1 else parentSteps steps

theorem ofSteps_eq (steps : List Step) :
    ofSteps steps = (roots steps).map fun s => grow (without steps s.id) s := rfl

theorem mem_roots_of_mem_parentSteps (h : s ∈ parentSteps steps) : s ∈ roots steps := by
  rw [roots, if_neg (by simpa using List.ne_nil_of_mem h)]
  exact h

theorem roots_subset (steps : List Step) : roots steps ⊆ steps := by
  unfold roots
  split
  · exact List.take_subset 1 steps
  · exact fun _ hr => List.mem_of_mem_filter hr

theorem mem_of_reach (hs : s ∈ steps) (hreach : ReflTransGen (References steps) s t) :
    t ∈ steps := by
  rcases hreach.cases_tail with rfl | ⟨_, -, href⟩
  · exact hs
  · exact href.1

theorem mem_idsOfList_ofSteps {id : String} (h : (steps.map (·.id)).Nodup) :
    id ∈ idsOfList (ofSteps steps) ↔
      ∃ r ∈ roots steps, ∃ t, t.id = id ∧ ReflTransGen (References steps) r t := by
  simp only [mem_idsOfList, ofSteps_eq, List.mem_map, exists_exists_and_eq_and]
  refine exists_congr fun r => and_congr_right fun hr => ?_
  rw [mem_ids_grow (nodup_ids_without h r.id)]
  refine exists_congr fun t => and_congr_right fun _ => ?_
  exact ⟨reach_of_without, reach_without h (roots_subset steps hr)⟩

end Steps

end StepTree

/-! ## Circles -/

section Circles

open StepOrder

variable {steps : List Step} {s : Step}

/-- A step lies on a circle of references or can be reached from one. -/
def OnOrBelowCircle (steps : List Step) (s : Step) : Prop :=
  ∃ k, TransGen (References steps) k k ∧ ReflTransGen (References steps) k s

theorem references_of_arc (h : (steps.map (·.id)).Nodup) {i j : Nat} (ha : Arc (edges steps) i j) :
    References steps (steps.getD i {}) (steps.getD j {}) := by
  obtain ⟨s, t, hs, ht, href⟩ := (leads_iff h).1 (arc_edges_iff.1 ha)
  rw [List.getD_eq_getElem?_getD, List.getD_eq_getElem?_getD, hs, ht]
  exact ⟨List.mem_of_getElem? ht, href⟩

theorem onOrBelowCircle_of_position (h : (steps.map (·.id)).Nodup) {j : Nat}
    (hj : BelowCircle (edges steps) j) : OnOrBelowCircle steps (steps.getD j {}) := by
  obtain ⟨k, hcircle, hreach⟩ := hj
  have hlift (i j : Nat) (ha : Arc (edges steps) i j) :
      References steps (steps.getD i {}) (steps.getD j {}) := references_of_arc h ha
  exact ⟨steps.getD k {}, hcircle.lift _ hlift, hreach.lift _ hlift⟩

/-- Followed back from a step away from circles, references end at one that nothing references. -/
theorem exists_parent_of_not_belowCircle (h : (steps.map (·.id)).Nodup)
    (j : Fin (edges steps).length) (hj : ¬ BelowCircle (edges steps) j) :
    ∃ r ∈ parentSteps steps, ReflTransGen (References steps) r (steps.getD j {}) := by
  induction j using (wellFounded_off_circles (edges steps)).induction with
  | _ j ih =>
    have hlt : j.val < steps.length := length_edges steps ▸ j.isLt
    have hs : steps[j.val]? = some (steps.getD j {}) := by
      rw [List.getD_eq_getElem _ _ hlt, List.getElem?_eq_getElem hlt]
    cases href : isReferenced steps (steps.getD j {}).id with
    | false =>
      exact ⟨_, List.mem_filter.2 ⟨List.mem_of_getElem? hs, by rw [href]; rfl⟩, .refl⟩
    | true =>
      obtain ⟨i, hi⟩ := (isReferenced_iff_leads h hs).1 href
      have ha : Arc (edges steps) i j := arc_edges_iff.2 hi
      obtain ⟨r, hr, hreach⟩ := ih ⟨i, ha.lt⟩ ⟨.single ha, hj⟩
        fun ⟨k, hk, hki⟩ => hj ⟨k, hk, hki.tail ha⟩
      exact ⟨r, hr, hreach.tail (references_of_arc h ha)⟩

theorem exists_parent_or_onOrBelowCircle (h : (steps.map (·.id)).Nodup) (hs : s ∈ steps) :
    (∃ r ∈ parentSteps steps, ReflTransGen (References steps) r s) ∨ OnOrBelowCircle steps s := by
  obtain ⟨j, hlt, rfl⟩ := List.mem_iff_getElem.1 hs
  rw [← List.getD_eq_getElem _ {} hlt]
  by_cases hj : BelowCircle (edges steps) j
  · exact .inr (onOrBelowCircle_of_position h hj)
  · exact .inl (exists_parent_of_not_belowCircle h ⟨j, (length_edges steps).symm ▸ hlt⟩ hj)

theorem mem_and_depth_lt_of_transGen {t : Step} (h : (steps.map (·.id)).Nodup)
    (hc : (ofSteps steps).cycle = none) (hs : s ∈ steps) (hst : TransGen (References steps) s t) :
    t ∈ steps ∧ depth steps s < depth steps t := by
  induction hst with
  | single href => exact ⟨href.1, depth_lt h hc hs href.1 href.2⟩
  | tail _ href ih => exact ⟨href.1, ih.2.trans (depth_lt h hc ih.1 href.1 href.2)⟩

theorem not_onOrBelowCircle (h : (steps.map (·.id)).Nodup) (hc : (ofSteps steps).cycle = none) :
    ¬ OnOrBelowCircle steps s := by
  rintro ⟨k, hk, -⟩
  obtain ⟨_, -, href⟩ := TransGen.tail'_iff.1 hk
  exact Nat.lt_irrefl _ (mem_and_depth_lt_of_transGen h hc href.1 hk).2

end Circles

namespace Form

theorem references_compile (p : Package) :
    References (compile p).steps = References p.discoveredSteps := by
  funext s t
  rw [References, References, Package.mem_steps_compile]

theorem mem_idsOfList_tree_iff {p : Package} {s : Step} (hs : s ∈ (compile p).steps) :
    s.id ∈ StepTree.idsOfList (compile p).tree ↔
      ∃ r ∈ StepTree.roots (compile p).steps, ReflTransGen (References (compile p).steps) r s := by
  have hids := nodup_ids_compile p
  rw [tree, StepTree.mem_idsOfList_ofSteps hids]
  refine exists_congr fun r => and_congr_right fun hr => ⟨?_, fun hreach => ⟨s, rfl, hreach⟩⟩
  rintro ⟨t, hid, hreach⟩
  have ht := StepTree.mem_of_reach (StepTree.roots_subset _ hr) hreach
  exact List.inj_on_of_nodup_map hids ht hs hid ▸ hreach

/-- The trees of a form hold, of all its steps, those that references lead to from the steps at the
roots: the parent steps or, without any, the first step. A step that is left out lies on a circle of
references or can be reached from one, so a form without a circle has all its steps in the trees. -/
theorem tree_holds_reachable (p : Package) :
    let f := compile p
    (∀ id ∈ StepTree.idsOfList f.tree, ∃ s ∈ f.steps, s.id = id) ∧
    (∀ s ∈ f.steps,
      (s.id ∈ StepTree.idsOfList f.tree ↔
        ∃ r ∈ StepTree.roots f.steps, ReflTransGen (References f.steps) r s) ∧
      (s.id ∉ StepTree.idsOfList f.tree → OnOrBelowCircle f.steps s)) ∧
    (f.cycle = none → ∀ s ∈ f.steps, s.id ∈ StepTree.idsOfList f.tree) := by
  intro f
  have hids : (f.steps.map (·.id)).Nodup := nodup_ids_compile p
  have hleft (s : Step) (hs : s ∈ f.steps) (hout : s.id ∉ StepTree.idsOfList f.tree) :
      OnOrBelowCircle f.steps s := by
    refine (exists_parent_or_onOrBelowCircle hids hs).resolve_left fun ⟨r, hr, hreach⟩ => hout ?_
    exact (mem_idsOfList_tree_iff hs).2 ⟨r, StepTree.mem_roots_of_mem_parentSteps hr, hreach⟩
  refine ⟨fun id hid => ?_, fun s hs => ⟨mem_idsOfList_tree_iff hs, hleft s hs⟩,
    fun hcycle s hs => ?_⟩
  · obtain ⟨r, hr, t, rfl, hreach⟩ := (StepTree.mem_idsOfList_ofSteps hids).1 hid
    exact ⟨t, StepTree.mem_of_reach (StepTree.roots_subset _ hr) hreach, rfl⟩
  · by_contra hout
    have hbelow := hleft s hs hout
    rw [OnOrBelowCircle, references_compile] at hbelow
    exact not_onOrBelowCircle p.nodup_ids_discoveredSteps hcycle hbelow

/-- A package of works and of persons, in which only persons lead to persons. -/
def personsApartPackage : Package where
  bundle := {
    main := { captureBase := { digest := "work", attributes := [("title", .text "Text")] } }
    dependencies := [{ captureBase := {
      digest := "person"
      attributes := [("name", .text "Text"), ("friend", .text "refs:person")] } }] }
  presentations := [
    { captureBase := "work" },
    { captureBase := "person"
      interactions := [SortedMap.empty.insert "friend" { kind := some (.name "reference") }] }]

/-- Persons have a step, which is not in the tree: no parent step leads to them. -/
theorem persons_left_out :
    (compile personsApartPackage).steps.map (·.id) = ["work", "person"] ∧
      (compile personsApartPackage).cycle = some ⟨["person"]⟩ ∧
      StepTree.idsOfList (compile personsApartPackage).tree = ["work"] := by
  refine ⟨?_, ?_, ?_⟩ <;> cbv

end Form
end Questionnaire
