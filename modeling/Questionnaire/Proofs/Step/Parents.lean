import Questionnaire.Proofs.Step.Targets

/-
  Parent steps stand before all others.

  The queue of ready positions starts with those that nothing leads to, and every other position
  joins at its end. So what is placed begins with the first queue (`start_ready_prefix_placed`),
  which holds the parent steps as they were given (`filterMap_start_ready`). In a form without a
  circle of references this makes the parent steps the first ones (`isParent_compile_iff`), and of
  the steps that reference a step the first one is a parent whenever any of them is
  (`isParent_referencingIndex?`).
-/

namespace Questionnaire

namespace StepOrder

/-! ## The first queue -/

theorem ready_prefix_release (js : List Nat) (p : Progress) :
    p.ready <+: (js.foldl release p).ready ∧ (js.foldl release p).placed = p.placed := by
  induction js generalizing p with
  | nil => exact ⟨List.prefix_rfl, rfl⟩
  | cons j js ih =>
    obtain ⟨hready, hplaced⟩ := ih (release p j)
    refine ⟨List.IsPrefix.trans ?_ hready, hplaced⟩
    unfold release
    dsimp only
    split
    · exact List.prefix_append _ _
    · exact List.prefix_rfl

/-- Placing moves the border between what is placed and what is ready, and new positions join at
the end. -/
theorem prefix_advance (edges : List (List Nat)) (p : Progress) :
    p.placed ++ p.ready <+: (advance edges p).placed ++ (advance edges p).ready := by
  unfold advance
  split
  · exact List.prefix_rfl
  · next i ready hready =>
    obtain ⟨hkept, hplaced⟩ :=
      ready_prefix_release (edges.getD i []) { p with ready, placed := p.placed ++ [i] }
    rw [hplaced, hready, List.append_assoc, List.singleton_append]
    exact (List.prefix_append_right_inj _).2 ((List.prefix_cons_inj i).2 hkept)

theorem prefix_placeUpTo (edges : List (List Nat)) (n : Nat) (p : Progress) :
    p.placed ++ p.ready <+: (placeUpTo edges n p).placed ++ (placeUpTo edges n p).ready := by
  induction n generalizing p with
  | zero => exact List.prefix_rfl
  | succ n ih => exact (prefix_advance edges p).trans (ih (advance edges p))

theorem start_ready_prefix_placed {edges : List (List Nat)} (hg : IsGraph edges) :
    (start edges).ready <+: (place edges).placed := by
  have h := prefix_placeUpTo edges edges.length (start edges)
  rw [← place, ready_place hg, List.append_nil] at h
  exact h

theorem mem_start_ready {edges : List (List Nat)} {j : Nat} :
    j ∈ (start edges).ready ↔ j < edges.length ∧ ∀ i, ¬ Arc edges i j := by
  have hc : Consistent edges (start edges) [] := consistent_start
  have hfree : j ∈ (start edges).ready ↔ j < edges.length ∧ (start edges).degrees.getD j 0 = 0 :=
    hc.free j
  rw [hfree]
  refine and_congr_right fun hj => ?_
  have hdegree : (start edges).degrees.getD j 0 = (waitingFor edges [] j).card := hc.degree j hj
  rw [hdegree, waitingFor_eq_empty_iff]
  exact forall_congr' fun i => ⟨fun h ha => List.not_mem_nil (h ha), fun h ha => (h ha).elim⟩

/-! ## Steps that nothing leads to -/

section Steps

variable {steps : List Step} {s : Step} {j : Nat}

theorem position?_of_nodup (h : (steps.map (·.id)).Nodup) (hj : steps[j]? = some s) :
    position? steps s.id = some j := by
  obtain ⟨hlt, rfl⟩ := List.getElem?_eq_some_iff.1 hj
  refine List.findIdx?_eq_some_iff_getElem.2 ⟨hlt, by simp, fun i hi => ?_⟩
  have hne := List.pairwise_iff_getElem.1 (List.pairwise_map.1 h) i j (hi.trans hlt) hlt hi
  simpa using hne

theorem isReferenced_iff {id : String} :
    isReferenced steps id = true ↔ ∃ t ∈ steps, id ∈ t.targets := by
  simp [isReferenced, Step.referencesStep]

/-- Where ids differ, a position leads to another exactly when its step references the other's. -/
theorem leads_iff (h : (steps.map (·.id)).Nodup) {i : Nat} :
    Leads steps i j ↔
      ∃ s t, steps[i]? = some s ∧ steps[j]? = some t ∧ s.referencesStep t.id := by
  simp only [Step.referencesStep, List.contains_iff_mem]
  constructor
  · rintro ⟨s, f, id, hs, hf, hid, hj⟩
    obtain ⟨hlt, hat, -⟩ := List.findIdx?_eq_some_iff_getElem.1 hj
    have hat : steps[j].id = id := of_decide_eq_true hat
    exact ⟨s, steps[j], hs, List.getElem?_eq_getElem hlt, mem_targets.2 ⟨f, hf, hat ▸ hid⟩⟩
  · rintro ⟨s, t, hs, ht, href⟩
    obtain ⟨f, hf, hid⟩ := mem_targets.1 href
    exact ⟨s, f, t.id, hs, hf, hid, position?_of_nodup h ht⟩

theorem isReferenced_iff_leads (h : (steps.map (·.id)).Nodup) (hj : steps[j]? = some s) :
    isReferenced steps s.id = true ↔ ∃ i, Leads steps i j := by
  rw [isReferenced, List.any_eq_true]
  simp only [leads_iff h, hj]
  constructor
  · rintro ⟨t, ht, href⟩
    obtain ⟨i, hi⟩ := List.mem_iff_getElem?.1 ht
    exact ⟨i, t, s, hi, rfl, href⟩
  · rintro ⟨_, t, s', hi, hs, href⟩
    cases hs
    exact ⟨t, List.mem_of_getElem? hi, href⟩

/-- The first queue holds the parent steps as they were given. -/
theorem filterMap_start_ready (h : (steps.map (·.id)).Nodup) :
    (start (edges steps)).ready.filterMap (steps[·]?) = parentSteps steps := by
  let free (i : Nat) : Bool := (start (edges steps)).degrees.getD i 0 = 0
  have hfree (i : Nat) (s : Step) (hs : steps[i]? = some s) :
      free i = !isReferenced steps s.id := by
    have hlt : i < (edges steps).length := length_edges steps ▸ (List.getElem?_eq_some_iff.1 hs).1
    have hready : free i ↔ i ∈ (start (edges steps)).ready :=
      ⟨fun hi => List.mem_filter.2 ⟨List.mem_range.2 hlt, hi⟩, fun hi => (List.mem_filter.1 hi).2⟩
    rw [Bool.eq_iff_iff, hready, mem_start_ready, Bool.not_eq_true', ← Bool.not_eq_true,
      isReferenced_iff_leads h hs, not_exists, and_iff_right hlt]
    exact forall_congr' fun _ => not_congr arc_edges_iff
  calc (start (edges steps)).ready.filterMap (steps[·]?)
    _ = (List.range steps.length).filterMap fun i => if free i then steps[i]? else none := by
      rw [← length_edges, ← List.filterMap_filter]
      rfl
    _ = (List.range steps.length).filterMap fun i =>
        (steps[i]?).filter fun s => !isReferenced steps s.id := by
      refine List.filterMap_congr fun i _ => ?_
      cases hs : steps[i]? with
      | none => simp
      | some s => rw [hfree i s hs, Option.filter_some]
    _ = parentSteps steps := by
      rw [← List.filter_filterMap, filterMap_range_getElem?]
      rfl

/-- Without a circle the steps that nothing references come first, in the order in which they were
given, and there are some. -/
theorem exists_parents (h : (steps.map (·.id)).Nodup) (hc : (ofSteps steps).cycle = none) :
    ∃ others, (ofSteps steps).steps = parentSteps steps ++ others ∧
      (∀ s ∈ others, isReferenced steps s.id = true) ∧ (parentSteps steps = [] → steps = []) := by
  have hg := isGraph_edges steps
  have hready := filterMap_start_ready h
  obtain ⟨rest, hrest⟩ := start_ready_prefix_placed hg
  have hperm := perm_placed hc
  -- All positions are placed: those of the first queue, which nothing leads to, then the others.
  refine ⟨rest.filterMap (steps[·]?), ?_, fun s hs => ?_, fun hnil => ?_⟩
  · rw [steps_of_cycle_eq_none hc, ← hrest, List.filterMap_append, hready]
  · obtain ⟨j, hj, hs⟩ := List.mem_filterMap.1 hs
    rw [isReferenced_iff_leads h hs]
    by_contra hnone
    have hlt : j < (edges steps).length := by
      rw [length_edges]
      exact (List.getElem?_eq_some_iff.1 hs).1
    have hready : j ∈ (start (edges steps)).ready :=
      mem_start_ready.2 ⟨hlt, fun i hi => hnone ⟨i, arc_edges_iff.1 hi⟩⟩
    have hnodup := hperm.nodup_iff.2 List.nodup_range
    rw [← hrest] at hnodup
    exact (List.nodup_append.1 hnodup).2.2 j hready j hj rfl
  · have hempty : (start (edges steps)).ready = [] := by
      refine List.eq_nil_iff_forall_not_mem.2 fun j hj => ?_
      have hlt := length_edges steps ▸ (mem_start_ready.1 hj).1
      have hmem := List.mem_filterMap.2 ⟨j, hj, List.getElem?_eq_getElem hlt⟩
      rw [hready, hnil] at hmem
      cases hmem
    have hplaced : (place (edges steps)).placed = [] := by
      rw [place, placeUpTo_of_ready_eq_nil _ hempty]
      rfl
    rw [hplaced] at hperm
    simpa using hperm.length_eq.symm

/-- Without a circle the parent steps keep the order in which they are given. -/
theorem parentSteps_ofSteps (h : (steps.map (·.id)).Nodup) (hc : (ofSteps steps).cycle = none) :
    parentSteps (ofSteps steps).steps = parentSteps steps := by
  obtain ⟨others, hsplit, hothers, -⟩ := exists_parents h hc
  have hsame (id : String) : isReferenced (ofSteps steps).steps id = isReferenced steps id :=
    (perm_ofSteps steps).any_eq
  have hkept : (parentSteps steps).filter (fun s => !isReferenced steps s.id) = parentSteps steps :=
    List.filter_eq_self.2 fun s hs => (List.mem_filter.1 hs).2
  have hleft : others.filter (fun s => !isReferenced steps s.id) = [] :=
    List.filter_eq_nil_iff.2 fun s hs => by simp [hothers s hs]
  rw [parentSteps]
  simp only [hsame]
  rw [hsplit, List.filter_append, hkept, hleft, List.append_nil]

end Steps

end StepOrder

/-! ## Forms -/

namespace Form

/-- The parent steps are the first ones, and there are some. -/
structure ParentsFirst (f : Form) : Prop where
  first : f.isParent 0
  before : ∀ i j, i ≤ j → f.isParent j → f.isParent i

theorem isParent_iff {f : Form} {i : Nat} :
    f.isParent i ↔ ∃ s, f.steps[i]? = some s ∧ isReferenced f.steps s.id = false := by
  unfold isParent
  split
  · next s hs => simp [hs]
  · next hs => simp [hs]

theorem mem_parentIndices {f : Form} {i : Nat} : i ∈ f.parentIndices ↔ f.isParent i := by
  rw [parentIndices, List.mem_filter, List.mem_range, and_iff_right_iff_imp]
  intro h
  obtain ⟨s, hs, -⟩ := isParent_iff.1 h
  exact (List.getElem?_eq_some_iff.1 hs).1

theorem steps_compile (p : Package) :
    (compile p).steps = (StepOrder.ofSteps p.discoveredSteps).steps := rfl

theorem cycle_compile (p : Package) :
    (compile p).cycle = (StepOrder.ofSteps p.discoveredSteps).cycle := rfl

theorem isReferenced_compile (p : Package) (id : String) :
    isReferenced (compile p).steps id = isReferenced p.discoveredSteps id :=
  p.perm_steps_compile.any_eq

theorem nodup_ids_compile (p : Package) : ((compile p).steps.map (·.id)).Nodup := by
  have hperm := p.perm_steps_compile.map (·.id)
  exact hperm.nodup_iff.2 p.nodup_ids_discoveredSteps

theorem exists_parents_compile {p : Package} (hcycle : (compile p).cycle = none) :
    ∃ others, (compile p).steps = parentSteps p.discoveredSteps ++ others ∧
      (∀ s ∈ others, isReferenced p.discoveredSteps s.id = true) ∧
      (parentSteps p.discoveredSteps = [] → p.discoveredSteps = []) := by
  rw [cycle_compile] at hcycle
  rw [steps_compile]
  exact StepOrder.exists_parents p.nodup_ids_discoveredSteps hcycle

/-- In a compiled form without a circle the parent steps are the first ones. -/
theorem isParent_compile_iff {p : Package} (hcycle : (compile p).cycle = none) {i : Nat} :
    (compile p).isParent i ↔ i < (parentSteps p.discoveredSteps).length := by
  obtain ⟨others, hsplit, hothers, -⟩ := exists_parents_compile hcycle
  simp only [isParent_iff, isReferenced_compile]
  constructor
  · rintro ⟨s, hs, hnot⟩
    by_contra hle
    rw [hsplit, List.getElem?_append_right (Nat.le_of_not_lt hle)] at hs
    rw [hothers s (List.mem_of_getElem? hs)] at hnot
    cases hnot
  · intro hlt
    have hnot := (List.mem_filter.1 (List.getElem_mem hlt)).2
    refine ⟨(parentSteps p.discoveredSteps)[i], ?_, by simpa using hnot⟩
    rw [hsplit, List.getElem?_append_left hlt, List.getElem?_eq_getElem hlt]

theorem parentSteps_ne_nil {p : Package} (hsteps : (compile p).steps ≠ [])
    (hcycle : (compile p).cycle = none) : parentSteps p.discoveredSteps ≠ [] := by
  intro hempty
  obtain ⟨-, -, -, hnil⟩ := exists_parents_compile hcycle
  have hlength := p.perm_steps_compile.length_eq
  rw [hnil hempty] at hlength
  exact hsteps (List.length_eq_zero_iff.1 hlength)

theorem parentsFirst_compile {p : Package} (hsteps : (compile p).steps ≠ [])
    (hcycle : (compile p).cycle = none) : (compile p).ParentsFirst where
  first := (isParent_compile_iff hcycle).2 (List.length_pos_iff.2 (parentSteps_ne_nil hsteps hcycle))
  before _ _ hij hj :=
    (isParent_compile_iff hcycle).2 (Nat.lt_of_le_of_lt hij ((isParent_compile_iff hcycle).1 hj))

variable {f : Form}

theorem exists_index_of_mem_parents {s : Step} (h : s ∈ f.parents) :
    ∃ i, f.steps[i]? = some s ∧ f.isParent i := by
  obtain ⟨hs, hnot⟩ := List.mem_filter.1 h
  obtain ⟨i, hi⟩ := List.mem_iff_getElem?.1 hs
  exact ⟨i, hi, isParent_iff.2 ⟨s, hi, by simpa using hnot⟩⟩

/-- The first step that references a step is a parent exactly when any parent step does. -/
theorem ParentsFirst.isParent_referencingIndex? (hf : f.ParentsFirst) {id : String} {i : Nat}
    (hi : f.referencingIndex? id = some i) :
    f.isParent i ↔ ∃ s ∈ f.parents, s.referencesStep id := by
  obtain ⟨hlt, href, hmin⟩ := List.findIdx?_eq_some_iff_getElem.1 hi
  constructor
  · intro hp
    obtain ⟨s, hs, hnot⟩ := isParent_iff.1 hp
    obtain ⟨_, rfl⟩ := List.getElem?_eq_some_iff.1 hs
    exact ⟨_, List.mem_filter.2 ⟨List.getElem_mem hlt, by simp [hnot]⟩, href⟩
  · rintro ⟨s, hs, hsref⟩
    obtain ⟨j, hj, hparent⟩ := exists_index_of_mem_parents hs
    refine hf.before i j (Nat.le_of_not_lt fun hlt' => ?_) hparent
    obtain ⟨_, rfl⟩ := List.getElem?_eq_some_iff.1 hj
    exact hmin j hlt' hsref

end Form
end Questionnaire
