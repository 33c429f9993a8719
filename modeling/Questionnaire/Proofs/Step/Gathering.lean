import Questionnaire.Proofs.Step.Assembly

/-
  Gathering drafts by the places of their units.

  Here the steps are gathered in one list that only grows, beside a register of the places at which
  the steps of the units stand. A draft is added to the step at the place that the register gives,
  and to nothing if no step stands there. `exists_add` is one draft: as long as the register gives
  the first step of every unit (`Located`), there is such a step, and the assembly is the one that
  looks through its steps. `exists_addAll` is a list of drafts. What the drafts come to is
  `gathers_addAll`: a step for each unit, and drafts that were added before change nothing.
-/

namespace Questionnaire

/-- The steps of a form as they are assembled, with the places at which steps are looked up. -/
structure StepRegister extends StepAssembly where
  /-- The place of the step of a unit. -/
  places : SortedMap Nat := ∅

namespace StepRegister

/-- The place of the step of a draft's unit, and the register in which that step stands. For a unit
without one, a step without pages is put behind the others. -/
def place (r : StepRegister) (d : StepDraft) : Nat × StepRegister :=
  match r.places.get? d.id with
  | some i => (i, r)
  | none =>
    (r.steps.length,
      { r with
        steps := r.steps ++ [r.opened d]
        places := r.places.insert d.id r.steps.length })

/-- The register with one more draft, if a step stands at the place of its unit. -/
def add (r : StepRegister) (d : StepDraft) : Option StepRegister := do
  let (i, r) := r.place d
  let s ← r.steps[i]?
  return { r with steps := r.steps.set i { s with pages := addPages s.pages d.pages } }

/-- The register with a list of drafts, in order. -/
def addAll (r : StepRegister) (drafts : List StepDraft) : Option StepRegister := drafts.foldlM add r

/-- The register gives for each unit the place of its first step. -/
def Located (r : StepRegister) : Prop := ∀ id, r.places.get? id = (r.steps.map (·.id)).idxOf? id

end StepRegister

/-- What a list of drafts makes of one unit. -/
structure Gathers (main : String) (title : LanguageMap String) (drafts : List StepDraft)
    (s : Step) : Prop where
  /-- The first draft of the unit fixes the texts and the parent. -/
  first : ∃ d, drafts.find? (·.id = s.id) = some d ∧
    s.names = d.names ∧ s.descriptions = d.descriptions ∧ s.parent = d.parent
  title : s.title = if s.id = main ∧ title.isEmpty = false then some title else none
  /-- All drafts of the unit give pages, in order; of each key the first page is kept. -/
  pages : s.pages = firstOfKeys ((drafts.filter (·.id = s.id)).flatMap (·.pages))

/-! ## Adding what is there already -/

theorem addPages_of_known {pages new : List Page}
    (h : ∀ p ∈ new, pages.any (·.key = p.key) = true) : addPages pages new = pages := by
  induction new with
  | nil => rfl
  | cons p new ih =>
    have hp : addPage pages p = pages := if_pos (h p List.mem_cons_self)
    rw [addPages, List.foldl_cons, hp]
    exact ih fun q hq => h q (List.mem_cons_of_mem p hq)

theorem any_key_firstOfKeys (pages : List Page) (key : String) :
    (firstOfKeys pages).any (·.key = key) = pages.any (·.key = key) := by
  induction pages with
  | nil => rfl
  | cons p pages ih =>
    rw [firstOfKeys, List.any_cons, List.any_cons, ← ih, List.any_filter]
    by_cases hp : p.key = key
    · simp [hp]
    · -- Only pages with the key of `p` are left out, and that is another key.
      congr 2
      funext q
      by_cases hq : q.key = key
      · simp [hq, Ne.symm hp]
      · simp [hq]

theorem firstOfKeys_append_of_subset {pages more : List Page} (h : more ⊆ pages) :
    firstOfKeys (pages ++ more) = firstOfKeys pages := by
  rw [← addPages_firstOfKeys]
  apply addPages_of_known
  intro p hp
  rw [any_key_firstOfKeys]
  exact List.any_eq_true.2 ⟨p, h hp, decide_eq_true rfl⟩

namespace StepAssembly

variable {a : StepAssembly} {d : StepDraft} {drafts again : List StepDraft} {id : String}

theorem exists_find?_of_mem (h : id ∈ drafts.map (·.id)) :
    ∃ d, drafts.find? (·.id = id) = some d := by
  obtain ⟨d, hd, hid⟩ := List.mem_map.1 h
  exact Option.isSome_iff_exists.1 (List.find?_isSome.2 ⟨d, hd, decide_eq_true hid⟩)

theorem stepOf_append_of_subset (h : again ⊆ drafts) (hid : id ∈ drafts.map (·.id)) :
    a.stepOf (drafts ++ again) id = a.stepOf drafts id := by
  obtain ⟨d, hd⟩ := exists_find?_of_mem hid
  have hpages : (again.filter (·.id = id)).flatMap (·.pages) ⊆
      (drafts.filter (·.id = id)).flatMap (·.pages) := by
    intro p hp
    obtain ⟨e, he, hpe⟩ := List.mem_flatMap.1 hp
    obtain ⟨hmem, hkept⟩ := List.mem_filter.1 he
    exact List.mem_flatMap.2 ⟨e, List.mem_filter.2 ⟨h hmem, hkept⟩, hpe⟩
  unfold stepOf
  rw [List.find?_append, hd, Option.some_or, List.filter_append, List.flatMap_append,
    firstOfKeys_append_of_subset hpages]

theorem addAll_eq (a : StepAssembly) (drafts : List StepDraft) :
    a.addAll drafts = { a with steps := (a.addAll drafts).steps } := by
  induction drafts generalizing a with
  | nil => rfl
  | cons d drafts ih => exact ih (a.add d)

theorem steps_addAll_append_of_subset (ha : a.steps = []) (h : again ⊆ drafts) :
    (a.addAll (drafts ++ again)).steps = (a.addAll drafts).steps := by
  have hids : ((drafts ++ again).map (·.id)).eraseDups = (drafts.map (·.id)).eraseDups := by
    have hnone : (again.map (·.id)).removeAll (drafts.map (·.id)) = [] := by
      rw [List.removeAll, List.filter_eq_nil_iff]
      intro id hid
      obtain ⟨d, hd, rfl⟩ := List.mem_map.1 hid
      simpa using ⟨d, h hd, rfl⟩
    rw [List.map_append, List.eraseDups_append, hnone, List.eraseDups_nil, List.append_nil]
  rw [steps_addAll ha, steps_addAll ha, hids]
  exact List.map_congr_left fun id hid => stepOf_append_of_subset h (List.mem_eraseDups.1 hid)

theorem gathers_stepOf (h : id ∈ drafts.map (·.id)) :
    Gathers a.main a.title drafts (a.stepOf drafts id) := by
  obtain ⟨d, hd⟩ := exists_find?_of_mem h
  have hid : d.id = id := by simpa using List.find?_some hd
  have hstep : a.stepOf drafts id =
      { a.opened d with pages := firstOfKeys ((drafts.filter (·.id = id)).flatMap (·.pages)) } := by
    rw [stepOf, hd, Option.getD_some]
  have hself : (a.stepOf drafts id).id = id := id_stepOf a drafts id
  refine ⟨⟨d, by rw [hself, hd], ?_, ?_, ?_⟩, ?_, ?_⟩
  · rw [hstep]; rfl
  · rw [hstep]; rfl
  · rw [hstep]; rfl
  · rw [hself, hstep]
    simp [opened, hid]
  · rw [hself, hstep]

/-! ## The step at a place -/

theorem extend_of_idxOf? {steps : List Step} {s : Step} {i : Nat}
    (hi : (steps.map (·.id)).idxOf? d.id = some i) (hs : steps[i]? = some s) :
    a.extend d steps = steps.set i { s with pages := addPages s.pages d.pages } := by
  induction steps generalizing i with
  | nil => cases hi
  | cons t steps ih =>
    rw [List.map_cons, List.idxOf?_cons] at hi
    split at hi
    · next hid =>
      obtain rfl := Option.some.inj hi
      obtain rfl : t = s := Option.some.inj hs
      rw [extend, if_pos (eq_of_beq hid), List.set_cons_zero]
    · next hid =>
      obtain ⟨j, hj, rfl⟩ := Option.map_eq_some_iff.1 hi
      have hne : t.id ≠ d.id := fun heq => hid (beq_iff_eq.2 heq)
      rw [extend, if_neg hne, ih hj hs, List.set_cons_succ]

end StepAssembly

namespace StepRegister

variable {r : StepRegister} {d : StepDraft}

theorem exists_step_of_place {i : Nat} (hr : r.Located) (hi : r.places.get? d.id = some i) :
    ∃ s, r.steps[i]? = some s ∧ s.id = d.id := by
  rw [hr d.id, List.idxOf?_eq_some_iff] at hi
  obtain ⟨hlt, hid, -⟩ := hi
  rw [List.length_map] at hlt
  rw [List.getElem_map] at hid
  exact ⟨r.steps[i], List.getElem?_eq_getElem hlt, hid⟩

theorem located_set {i : Nat} {s t : Step} (hr : r.Located) (hs : r.steps[i]? = some s)
    (hid : t.id = s.id) : Located { r with steps := r.steps.set i t } := by
  obtain ⟨hlt, rfl⟩ := List.getElem?_eq_some_iff.1 hs
  have hids : (r.steps.set i t).map (·.id) = r.steps.map (·.id) := by
    rw [List.map_set, hid, ← List.map_set, List.set_getElem_self]
  intro id
  rw [hids]
  exact hr id

theorem located_open {s : Step} (hr : r.Located) (hnew : r.places.get? s.id = none) :
    Located { r with
      steps := r.steps ++ [s], places := r.places.insert s.id r.steps.length } := by
  intro id
  have hlast : (r.steps ++ [s]).map (·.id) = r.steps.map (·.id) ++ [s.id] := List.map_append
  rw [SortedMap.get?_insert, hr id, hlast]
  rw [hr s.id, List.idxOf?_eq_none_iff] at hnew
  unfold List.idxOf?
  rw [List.findIdx?_append]
  by_cases hid : id = s.id
  · subst hid
    have hnone : (r.steps.map (·.id)).findIdx? (· == s.id) = none := by
      rw [List.findIdx?_eq_none_iff]
      intro x hx
      exact beq_false_of_ne fun heq => hnew (heq ▸ hx)
    simp [hnone]
  · simp [hid, Ne.symm hid]

/-- One draft finds the step of its unit, and the register keeps giving the steps of all units. -/
theorem exists_add (hr : r.Located) (d : StepDraft) :
    ∃ r', r.add d = some r' ∧ r'.Located ∧ r'.toStepAssembly = r.toStepAssembly.add d := by
  unfold add place
  cases hplace : r.places.get? d.id with
  | some i =>
    obtain ⟨s, hs, hid⟩ := exists_step_of_place hr hplace
    simp only [hs, Option.bind_eq_bind, Option.bind_some]
    refine ⟨_, rfl, located_set hr hs rfl, ?_⟩
    have hi : (r.steps.map (·.id)).idxOf? d.id = some i := by rw [← hr d.id, hplace]
    rw [StepAssembly.add, StepAssembly.extend_of_idxOf? hi hs]
  | none =>
    have hnew : d.id ∉ r.steps.map (·.id) := by
      rw [← List.idxOf?_eq_none_iff, ← hr d.id, hplace]
    have hlast : (r.steps ++ [r.opened d])[r.steps.length]? = some (r.opened d) :=
      List.getElem?_concat_length
    have hopen : Located { r with
        steps := r.steps ++ [r.opened d], places := r.places.insert d.id r.steps.length } :=
      located_open (s := r.opened d) hr hplace
    simp only [hlast, Option.bind_eq_bind, Option.bind_some]
    refine ⟨_, rfl, located_set hopen hlast rfl, ?_⟩
    rw [StepAssembly.add, StepAssembly.extend_of_not_mem hnew]
    simp [StepAssembly.opened]

/-- Every list of drafts is added, as it is without a register. -/
theorem exists_addAll (hr : r.Located) (drafts : List StepDraft) :
    ∃ r', r.addAll drafts = some r' ∧ r'.Located ∧
      r'.toStepAssembly = r.toStepAssembly.addAll drafts := by
  induction drafts generalizing r with
  | nil => exact ⟨r, rfl, hr, rfl⟩
  | cons d drafts ih =>
    obtain ⟨r₁, hadd, hr₁, hsteps₁⟩ := exists_add hr d
    obtain ⟨r₂, haddAll, hr₂, hsteps₂⟩ := ih hr₁
    refine ⟨r₂, ?_, hr₂, by rw [hsteps₂, hsteps₁]; rfl⟩
    unfold addAll
    rw [List.foldlM_cons, hadd]
    exact haddAll

/-- The steps determine the register. -/
theorem eq_of_located {r' : StepRegister} (hr : r.Located) (hr' : r'.Located)
    (h : r.toStepAssembly = r'.toStepAssembly) : r = r' := by
  obtain ⟨a, places⟩ := r
  obtain ⟨a', places'⟩ := r'
  obtain rfl : a = a' := h
  obtain rfl : places = places' := SortedMap.ext_get? fun id => (hr id).trans (hr' id).symm
  rfl

theorem located_start (main : String) (title : LanguageMap String) :
    Located { main, title } := fun _ => rfl

/-- Every list of drafts is gathered into one step for each of its units, in the order of their
first drafts. Drafts that were added before, such as those of any prefix, change nothing when they
are added once more. -/
theorem gathers_addAll (main : String) (title : LanguageMap String) (drafts : List StepDraft) :
    ∃ r, addAll { main, title } drafts = some r ∧
      r.steps = assembleSteps main title drafts ∧
      r.steps.map (·.id) = (drafts.map (·.id)).eraseDups ∧
      (∀ s ∈ r.steps, Gathers main title drafts s) ∧
      ∀ again, again ⊆ drafts → addAll { main, title } (drafts ++ again) = some r := by
  obtain ⟨r, hadd, hr, hsteps⟩ := exists_addAll (located_start main title) drafts
  have hassembled : r.steps = assembleSteps main title drafts :=
    congrArg StepAssembly.steps hsteps
  refine ⟨r, hadd, hassembled, ?_, ?_, ?_⟩
  · rw [hassembled, assembleSteps_eq, StepAssembly.map_id_map_stepOf]
  · intro s hs
    rw [hassembled, assembleSteps_eq] at hs
    obtain ⟨id, hid, rfl⟩ := List.mem_map.1 hs
    exact StepAssembly.gathers_stepOf (a := { main, title }) (List.mem_eraseDups.1 hid)
  · intro again hagain
    obtain ⟨r', hadd', hr', hsteps'⟩ := exists_addAll (located_start main title) (drafts ++ again)
    have hsame : r'.toStepAssembly = r.toStepAssembly := by
      rw [hsteps', hsteps, StepAssembly.addAll_eq, StepAssembly.addAll_eq _ drafts,
        StepAssembly.steps_addAll_append_of_subset rfl hagain]
    rw [hadd', eq_of_located hr' hr hsame]

end StepRegister
end Questionnaire
