import Questionnaire.Proofs.Step.Order
import Questionnaire.Step.Assembly

/-
  Drafts become steps as a declaration would say it.

  `steps_addAll`: there is one step for each unit that has a draft, in the order of the first
  drafts. The first draft of a unit fixes all but the pages; those are the pages of all its drafts,
  one behind another, with only the first of each key kept.
-/

namespace Questionnaire

/-! ## The first page of each key -/

/-- The pages that are the first ones of their keys. -/
def firstOfKeys : List Page → List Page
  | [] => []
  | p :: pages => p :: (firstOfKeys pages).filter (·.key ≠ p.key)

theorem nodup_keys_firstOfKeys (pages : List Page) :
    ((firstOfKeys pages).map (·.key)).Nodup := by
  induction pages with
  | nil => exact List.nodup_nil
  | cons p pages ih =>
    refine List.nodup_cons.2 ⟨fun hmem => ?_, ?_⟩
    · obtain ⟨q, hq, hkey⟩ := List.mem_map.1 hmem
      simp only [List.mem_filter, decide_eq_true_eq] at hq
      exact hq.2 hkey
    · exact ih.sublist (List.filter_sublist.map _)

theorem addPages_eq (pages new : List Page) :
    addPages pages new =
      pages ++ (firstOfKeys new).filter fun p => !pages.any (·.key = p.key) := by
  induction new generalizing pages with
  | nil => simp [addPages, firstOfKeys]
  | cons p new ih =>
    rw [addPages, List.foldl_cons, ← addPages, ih, addPage, firstOfKeys]
    split
    · next hp =>
      rw [List.filter_cons_of_neg (by simp [hp]), List.filter_filter]
      congr 1
      refine List.filter_congr fun q _ => ?_
      by_cases hq : q.key = p.key
      · simp only [hq, hp, Bool.not_true, Bool.false_and]
      · simp [hq]
    · next hp =>
      rw [List.filter_cons_of_pos (by simp [hp]), List.filter_filter, List.append_assoc,
        List.singleton_append]
      congr 2
      refine List.filter_congr fun q _ => ?_
      simp [List.any_append, Bool.not_or, eq_comm]

theorem addPages_nil (pages : List Page) : addPages [] pages = firstOfKeys pages := by
  rw [addPages_eq]
  simp

theorem addPages_firstOfKeys (pages new : List Page) :
    addPages (firstOfKeys pages) new = firstOfKeys (pages ++ new) := by
  rw [← addPages_nil, ← addPages_nil, addPages, addPages, addPages, List.foldl_append]

/-! ## One step for each unit -/

namespace StepAssembly

variable {a : StepAssembly} {d : StepDraft} {drafts : List StepDraft}

/-- The step that drafts make for a unit. -/
def stepOf (a : StepAssembly) (drafts : List StepDraft) (id : String) : Step :=
  { a.opened ((drafts.find? (·.id = id)).getD { id }) with
    pages := firstOfKeys ((drafts.filter (·.id = id)).flatMap (·.pages)) }

theorem id_stepOf (a : StepAssembly) (drafts : List StepDraft) (id : String) :
    (a.stepOf drafts id).id = id := by
  rw [stepOf, opened]
  cases h : drafts.find? (·.id = id) with
  | none => rfl
  | some d => simpa using List.find?_some h

theorem stepOf_snoc_of_ne {id : String} (h : d.id ≠ id) :
    a.stepOf (drafts ++ [d]) id = a.stepOf drafts id := by
  simp [stepOf, List.find?_append, h]

theorem stepOf_snoc_of_mem (h : d.id ∈ drafts.map (·.id)) :
    a.stepOf (drafts ++ [d]) d.id =
      { a.stepOf drafts d.id with pages := addPages (a.stepOf drafts d.id).pages d.pages } := by
  obtain ⟨e, he, hid⟩ := List.mem_map.1 h
  have hsome : (drafts.find? (·.id = d.id)).isSome :=
    List.find?_isSome.2 ⟨e, he, decide_eq_true hid⟩
  obtain ⟨first, hfirst⟩ := Option.isSome_iff_exists.1 hsome
  simp only [stepOf, addPages_firstOfKeys, List.find?_append, hfirst, Option.some_or,
    List.filter_append, List.flatMap_append, List.filter_cons, List.filter_nil, decide_true,
    if_true, List.flatMap_cons, List.flatMap_nil, List.append_nil]

theorem stepOf_snoc_of_not_mem (h : d.id ∉ drafts.map (·.id)) :
    a.stepOf (drafts ++ [d]) d.id = { a.opened d with pages := addPages [] d.pages } := by
  have hne (e : StepDraft) (he : e ∈ drafts) : ¬ e.id = d.id :=
    fun hid => h (hid ▸ List.mem_map_of_mem he)
  have hfind : drafts.find? (·.id = d.id) = none := List.find?_eq_none.2 (by simpa using hne)
  have hfilter : drafts.filter (·.id = d.id) = [] := List.filter_eq_nil_iff.2 (by simpa using hne)
  simp [stepOf, addPages_nil, List.find?_append, hfind, hfilter]

theorem extend_of_not_mem {steps : List Step} (h : d.id ∉ steps.map (·.id)) :
    a.extend d steps = steps ++ [{ a.opened d with pages := addPages [] d.pages }] := by
  induction steps with
  | nil => rfl
  | cons s steps ih =>
    rw [List.map_cons, List.mem_cons, not_or] at h
    rw [extend, if_neg (Ne.symm h.1), ih h.2, List.cons_append]

theorem extend_of_mem {steps : List Step} (hnodup : (steps.map (·.id)).Nodup)
    (h : d.id ∈ steps.map (·.id)) :
    a.extend d steps = steps.map fun s =>
      if s.id = d.id then { s with pages := addPages s.pages d.pages } else s := by
  induction steps with
  | nil => cases h
  | cons s steps ih =>
    obtain ⟨hs, hsteps⟩ := List.nodup_cons.1 hnodup
    rw [extend, List.map_cons]
    split
    · next hid =>
      have hlater (t : Step) (ht : t ∈ steps) : t.id ≠ d.id :=
        fun htd => hs (List.mem_map.2 ⟨t, ht, htd.trans hid.symm⟩)
      exact congrArg _ ((List.map_congr_left fun t ht => if_neg (hlater t ht)).trans
        (List.map_id' steps)).symm
    · next hid => rw [ih hsteps ((List.mem_cons.1 h).resolve_left (Ne.symm hid))]

theorem opened_addAll (a : StepAssembly) (drafts : List StepDraft) :
    (a.addAll drafts).opened d = a.opened d := by
  induction drafts generalizing a with
  | nil => rfl
  | cons e drafts ih => exact ih (a.add e)

theorem addAll_snoc (a : StepAssembly) (drafts : List StepDraft) (d : StepDraft) :
    (a.addAll (drafts ++ [d])).steps = (a.addAll drafts).extend d (a.addAll drafts).steps := by
  rw [addAll, List.foldl_append]
  rfl

theorem map_id_map_stepOf (a : StepAssembly) (drafts : List StepDraft) (ids : List String) :
    (ids.map (a.stepOf drafts)).map (·.id) = ids := by
  rw [List.map_map]
  exact (List.map_congr_left fun id _ => id_stepOf a drafts id).trans (List.map_id' ids)

theorem steps_addAll (ha : a.steps = []) (drafts : List StepDraft) :
    (a.addAll drafts).steps = (drafts.map (·.id)).eraseDups.map (a.stepOf drafts) := by
  induction drafts using List.reverseRecOn with
  | nil => exact ha
  | append_singleton drafts d ih =>
    rw [addAll_snoc, ih, List.map_append, List.eraseDups_append]
    by_cases h : d.id ∈ drafts.map (·.id)
    · have hmem : d.id ∈ (drafts.map (·.id)).eraseDups := List.mem_eraseDups.2 h
      rw [extend_of_mem (by rw [map_id_map_stepOf]; exact StepOrder.nodup_eraseDups _)
        (by rwa [map_id_map_stepOf]), List.map_map]
      have hnone : ([d].map (·.id)).removeAll (drafts.map (·.id)) = [] := by
        simpa [List.removeAll] using h
      rw [hnone, List.eraseDups_nil, List.append_nil]
      refine List.map_congr_left fun id _ => ?_
      by_cases hid : id = d.id
      · subst hid
        rw [Function.comp_apply, if_pos (id_stepOf a drafts d.id), stepOf_snoc_of_mem h]
      · rw [Function.comp_apply, if_neg (by rwa [id_stepOf]), stepOf_snoc_of_ne (Ne.symm hid)]
    · have hone : ([d].map (·.id)).removeAll (drafts.map (·.id)) = [d.id] := by
        simpa [List.removeAll] using h
      rw [extend_of_not_mem (by rwa [map_id_map_stepOf, List.mem_eraseDups]), hone, opened_addAll,
        List.map_append, ← stepOf_snoc_of_not_mem h]
      have hold (id : String) (hid : id ∈ (drafts.map (·.id)).eraseDups) :
          a.stepOf drafts id = a.stepOf (drafts ++ [d]) id :=
        (stepOf_snoc_of_ne fun heq => h (heq ▸ List.mem_eraseDups.1 hid)).symm
      rw [List.map_congr_left hold]
      rfl

end StepAssembly

/-- One step for each unit with a draft, in the order of the first drafts. -/
theorem assembleSteps_eq (main : String) (title : LanguageMap String) (drafts : List StepDraft) :
    assembleSteps main title drafts =
      (drafts.map (·.id)).eraseDups.map (StepAssembly.stepOf { main, title } drafts) :=
  StepAssembly.steps_addAll rfl drafts

end Questionnaire
