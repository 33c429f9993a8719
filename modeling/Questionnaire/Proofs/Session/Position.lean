import Mathlib.Data.List.TakeWhile
import Questionnaire.Proofs.Session.Runs
import Questionnaire.Proofs.Step.Order

/-
  Where a session stands.

  `Settled` holds wherever the user stands: the remembered pages fit their steps, the records
  being edited are there, and every record is filled in a step of the form. `InPlace` adds that
  the current step is one of the form, counts as visited and is the step of the innermost record.
  Every way to move enters a step of a settled session (`inPlace_enter`), and going back enters
  the step of the record around (`inPlace_goBack`). By `inPlace_perform` no action leaves its
  place.
-/

namespace Questionnaire.Session

/-- What holds wherever the user stands. -/
structure Settled (s : Session) : Prop where
  length_pages : s.pages.length = s.form.steps.length
  /-- The page last shown of a step is one of its pages, or the first if it has none. -/
  page_lt : ∀ i < s.form.steps.length, s.pageOf i < max 1 (s.form.steps.getD i {}).pages.length
  /-- The records being edited are there. -/
  active : ∀ a ∈ s.active, ∃ r, s.data.record? a.id = some r
  known : ∀ r ∈ s.data.records, ∃ i, s.form.stepIndex? r.step = some i

/-- The session stands at a step of its form, that of the innermost record being edited. -/
structure InPlace (s : Session) : Prop extends Settled s where
  step_lt : s.step < s.form.steps.length
  visited : s.isVisited s.currentStep.id
  innermost : ∀ a rest, s.active = a :: rest →
    ∃ r, s.data.record? a.id = some r ∧ s.form.stepIndex? r.step = some s.step

/-! ## Steps to go to -/

theorem stepIndex?_lt {f : Form} {id : String} {i : Nat} (h : f.stepIndex? id = some i) :
    i < f.steps.length := StepOrder.position?_lt h

theorem referencingIndex?_lt {f : Form} {id : String} {i : Nat}
    (h : f.referencingIndex? id = some i) : i < f.steps.length :=
  (List.findIdx?_eq_some_iff_getElem.1 h).1

theorem lt_of_mem_parentIndices {f : Form} {i : Nat} (h : i ∈ f.parentIndices) :
    i < f.steps.length := List.mem_range.1 (List.mem_filter.1 h).1

theorem returnStep_of_active {s : Session} {a : ActiveRecord} {rest : List ActiveRecord}
    {r : ChildRecord} {i : Nat} (ha : s.active = a :: rest) (hr : s.data.record? a.id = some r)
    (hi : s.form.stepIndex? r.step = some i) : s.returnStep = i := by
  simp [returnStep, ha, hr, hi]

theorem getD_or_lt {o o' : Option Nat} {n : Nat} (hn : 0 < n) (h : ∀ i, o = some i → i < n)
    (h' : ∀ i, o' = some i → i < n) : (o.or o').getD 0 < n := by
  cases o with
  | some i => exact h i rfl
  | none =>
    cases o' with
    | some i => exact h' i rfl
    | none => exact hn

theorem returnStep_lt (s : Session) (h : 0 < s.form.steps.length) :
    s.returnStep < s.form.steps.length := by
  refine getD_or_lt h (fun i hi => ?_) fun i hi => referencingIndex?_lt hi
  simp only [bind, Option.bind_eq_some_iff] at hi
  obtain ⟨_, _, _, _, hi⟩ := hi
  exact stepIndex?_lt hi

theorem lastPageOf_lt (s : Session) (step : Nat) :
    s.lastPageOf step < max 1 (s.form.steps.getD step {}).pages.length := by
  unfold lastPageOf
  omega

/-! ## Moving -/

theorem pageOf_set {s : Session} (step page i : Nat) (h : step < s.pages.length) :
    ({ s with pages := s.pages.set step page } : Session).pageOf i =
      if i = step then page else s.pageOf i := by
  unfold pageOf
  rw [List.getD_eq_getElem?_getD, List.getD_eq_getElem?_getD, List.getElem?_set]
  rcases Decidable.em (i = step) with rfl | hi
  · simp [h]
  · simp [hi, Ne.symm hi]

theorem settled_setPage {s : Session} (h : s.Settled) {step page : Nat}
    (hstep : step < s.form.steps.length)
    (hpage : page < max 1 (s.form.steps.getD step {}).pages.length) :
    ({ s with pages := s.pages.set step page } : Session).Settled := by
  refine ⟨?_, ?_, h.active, h.known⟩
  · show (s.pages.set step page).length = _
    rw [List.length_set, h.length_pages]
  · intro i hi
    rw [pageOf_set step page i (h.length_pages ▸ hstep)]
    split
    · next heq => exact heq ▸ hpage
    · exact h.page_lt i hi

/-- Another page of the current step may be shown. -/
theorem inPlace_setPage {s : Session} (h : s.InPlace) {page : Nat}
    (hpage : page < max 1 s.currentStep.pages.length) :
    ({ s with pages := s.pages.set s.step page } : Session).InPlace := by
  have hset := settled_setPage h.toSettled h.step_lt hpage
  exact ⟨hset, h.step_lt, h.visited, h.innermost⟩

theorem inPlace_enter {s : Session} (h : s.Settled) {step page : Nat}
    (hstep : step < s.form.steps.length)
    (hpage : page < max 1 (s.form.steps.getD step {}).pages.length)
    (hin : ∀ a rest, s.active = a :: rest →
      ∃ r, s.data.record? a.id = some r ∧ s.form.stepIndex? r.step = some step) :
    (s.enter step page).InPlace := by
  have hset := settled_setPage h hstep hpage
  refine ⟨⟨hset.length_pages, hset.page_lt, h.active, h.known⟩, hstep, ?_, hin⟩
  show ((s.visited.insert (s.form.steps.getD step {}).id ()).get? _).isSome
  rw [SortedMap.get?_insert]
  simp [enter, currentStep]

theorem inPlace_goBack {s : Session} (h : s.Settled) (hne : 0 < s.form.steps.length) :
    s.goBack.InPlace := by
  have hlt := s.returnStep_lt hne
  refine inPlace_enter h hlt (h.page_lt _ hlt) fun a rest ha => ?_
  obtain ⟨r, hr⟩ := h.active a (ha ▸ List.mem_cons_self)
  obtain ⟨i, hi⟩ := h.known r (FormData.mem_of_record? hr)
  exact ⟨r, hr, returnStep_of_active ha hr hi ▸ hi⟩

theorem settled_push {s : Session} (h : s.Settled) {a : ActiveRecord} {r : ChildRecord}
    (hr : s.data.record? a.id = some r) : (s.push a).Settled := by
  refine ⟨h.length_pages, h.page_lt, fun b hb => ?_, h.known⟩
  rcases List.mem_cons.1 hb with rfl | hb
  · exact ⟨r, hr⟩
  · exact h.active b hb

/-! ## Committing and saving -/

theorem settled_commit {s : Session} (h : s.Settled) : s.commit.Settled := by
  have hframes := frames_commit s
  refine ⟨?_, ?_, ?_, ?_⟩
  · simpa using h.length_pages
  · simpa [pageOf] using h.page_lt
  · intro a ha
    obtain ⟨r, hr⟩ := h.active a (by simpa using ha)
    obtain ⟨r', hr', _⟩ := FormData.record?_of_frames_eq hframes hr
    exact ⟨r', hr'⟩
  · intro r hr
    obtain ⟨r', hr', hframe⟩ := FormData.mem_of_frames_eq hframes hr
    rw [commit_form, ← (ChildRecord.frame_eq_iff.1 hframe).2.2.2]
    exact h.known r' hr'

theorem inPlace_commit {s : Session} (h : s.InPlace) : s.commit.InPlace := by
  refine ⟨settled_commit h.toSettled, ?_, ?_, fun a rest ha => ?_⟩
  · simpa using h.step_lt
  · simpa [isVisited] using h.visited
  · obtain ⟨r, hr, hi⟩ := h.innermost a rest (by simpa using ha)
    obtain ⟨r', hr', hframe⟩ := FormData.record?_of_frames_eq (frames_commit s) hr
    refine ⟨r', hr', ?_⟩
    rw [commit_form, commit_step, (ChildRecord.frame_eq_iff.1 hframe).2.2.2]
    exact hi

/-- The place does not depend on the language, the draft and the failures. -/
theorem inPlace_with {s : Session} (h : s.InPlace) (language : String) (draft : Values)
    (failures : Failures) : ({ s with language, draft, failures } : Session).InPlace :=
  ⟨⟨h.length_pages, h.page_lt, h.active, h.known⟩, h.step_lt, h.visited, h.innermost⟩

theorem inPlace_save {s : Session} (h : s.InPlace) : s.save.2.InPlace := by
  obtain ⟨failures, hsave⟩ := s.save_eq
  rw [hsave]
  exact inPlace_with (inPlace_commit h) _ _ failures

theorem settled_leaveScope {s : Session} (h : s.Settled) : s.leaveScope.Settled :=
  ⟨h.length_pages, h.page_lt, fun a ha => h.active a (List.mem_of_mem_tail ha), h.known⟩

/-! ## Adding, removing and dropping records -/

theorem settled_addRecord {s : Session} (h : s.Settled) {r : ChildRecord} {i : Nat}
    (hi : s.form.stepIndex? r.step = some i) :
    ({ s with data := s.data.addRecord r } : Session).Settled := by
  refine ⟨h.length_pages, h.page_lt, fun a ha => ?_, fun x hx => ?_⟩
  · obtain ⟨x, hx⟩ := h.active a ha
    exact ⟨x, FormData.record?_addRecord_of_some hx⟩
  · rcases List.mem_append.1 hx with hx | hx
    · exact h.known x hx
    · rw [List.mem_singleton] at hx
      subst hx
      exact ⟨i, hi⟩

theorem known_removeRecord {s : Session} (h : s.Settled) (id : String) :
    ∀ r ∈ (s.data.removeRecord id).records, ∃ i, s.form.stepIndex? r.step = some i :=
  fun r hr => h.known r (FormData.mem_removeRecord.1 hr).1

theorem mem_keptActive {active : List ActiveRecord} {removed : List String} {a : ActiveRecord}
    (h : a ∈ keptActive active removed) : a ∈ active ∧ a.id ∉ removed := by
  have hmem : a ∈ active.reverse.takeWhile fun a => !removed.contains a.id :=
    List.mem_reverse.1 h
  refine ⟨List.mem_reverse.1 ((List.takeWhile_sublist _).subset hmem), ?_⟩
  simpa using List.mem_takeWhile_imp hmem

theorem settled_dropRecord {s : Session} (h : s.Settled) (id : String)
    {active : List ActiveRecord}
    (hactive : ∀ a ∈ active, a ∈ s.active ∧ a.id ∉ (s.data.removed id).map (·.id))
    (draft : Values) : ({ s.dropRecord id with active, draft } : Session).Settled := by
  refine ⟨h.length_pages, h.page_lt, fun a ha => ?_, known_removeRecord h id⟩
  obtain ⟨hmem, hnot⟩ := hactive a ha
  obtain ⟨r, hr⟩ := h.active a hmem
  exact ⟨r, FormData.record?_removeRecord_of_some hr hnot⟩

theorem inPlace_dropRecord {s : Session} (h : s.InPlace) (id : String)
    (hactive : ∀ a ∈ s.active, a.id ∉ (s.data.removed id).map (·.id)) :
    (s.dropRecord id).InPlace := by
  have hsettled := settled_dropRecord h.toSettled id (fun a ha => ⟨ha, hactive a ha⟩) s.draft
  refine ⟨hsettled, h.step_lt, h.visited, fun a rest ha => ?_⟩
  obtain ⟨r, hr, hi⟩ := h.innermost a rest ha
  have ha : s.active = a :: rest := ha
  have hnot := hactive a (ha ▸ List.mem_cons_self)
  exact ⟨r, FormData.record?_removeRecord_of_some hr hnot, hi⟩

theorem inPlace_cancel {s : Session} (h : s.InPlace) : s.cancel.InPlace := by
  have hsettled : ({ s with
      draft := ∅, data := rollBack s.data s.active, active := [], failures := {} }
      : Session).Settled :=
    ⟨h.length_pages, h.page_lt, fun a ha => absurd ha List.not_mem_nil,
      fun r hr => h.known r (mem_rollBack hr)⟩
  exact inPlace_enter hsettled (Nat.zero_lt_of_lt h.step_lt) (by omega) fun a rest ha => by
    cases ha

/-! ## Runs -/

theorem active_of_mayLeave {s : Session} (h : s.mayLeave = true) : s.active = [] := by
  simp only [mayLeave, Bool.and_eq_true, List.isEmpty_iff] at h
  exact h.1

/-- A parent step is entered outside all records. -/
theorem inPlace_enter_parent {s : Session} (h : s.InPlace) (hleave : s.mayLeave = true)
    {step page : Nat} (hstep : step ∈ s.form.parentIndices)
    (hpage : page < max 1 (s.form.steps.getD step {}).pages.length) :
    (s.enter step page).InPlace := by
  refine inPlace_enter h.toSettled (lt_of_mem_parentIndices hstep) hpage fun a rest ha => ?_
  rw [active_of_mayLeave hleave] at ha
  cases ha

theorem inPlace_added {s : Session} (h : s.InPlace) {r : ChildRecord} {a : ActiveRecord}
    {step : Nat} (hid : a.id = r.id) (hfresh : ∀ x ∈ s.data.records, x.id ≠ r.id)
    (hstep : s.form.stepIndex? r.step = some step) :
    ((({ s with data := s.data.addRecord r } : Session).push a).enter step 0).InPlace := by
  have hself : (s.data.addRecord r).record? a.id = some r :=
    hid ▸ FormData.record?_addRecord_self hfresh
  have hsettled := settled_push (settled_addRecord h.toSettled hstep) hself
  refine inPlace_enter hsettled (stepIndex?_lt hstep) (by omega) fun b rest hb => ?_
  cases hb
  exact ⟨r, hself, hstep⟩

theorem inPlace_opened {s : Session} (h : s.InPlace) {r : ChildRecord} {a : ActiveRecord}
    {step : Nat} (hr : s.data.record? a.id = some r)
    (hstep : s.form.stepIndex? r.step = some step) : ((s.push a).enter step 0).InPlace := by
  have hsettled := settled_push h.toSettled hr
  refine inPlace_enter hsettled (stepIndex?_lt hstep) (by omega) fun b rest hb => ?_
  cases hb
  exact ⟨r, hr, hstep⟩

theorem inPlace_perform {s : Session} {a : SessionAction} (h : s.InPlace) (hfresh : s.Fresh a) :
    (s.perform a).InPlace := by
  have hc := inPlace_commit h
  have hout := s.outcome_perform a
  generalize s.perform a = t at hout
  cases hout with
  | failed => exact h
  | edited => exact inPlace_with h _ _ _
  | spoken => exact inPlace_with h _ _ _
  | saved => exact inPlace_save h
  | nextEnd => exact hc
  | previousEnd => exact hc
  | nextPage hpage =>
    have hset : s.page + 1 < max 1 s.commit.currentStep.pages.length := by
      rw [commit_currentStep]
      omega
    simpa using inPlace_setPage hc hset
  | nextStep _ hleave hfind =>
    have hmem := List.mem_of_find?_eq_some hfind
    exact inPlace_enter_parent hc (by simpa using hleave) (by simpa using hmem) (by omega)
  | previousPage =>
    have hlt := h.page_lt s.step h.step_lt
    have hset : s.page - 1 < max 1 s.commit.currentStep.pages.length := by
      rw [commit_currentStep]
      exact Nat.lt_of_le_of_lt (Nat.sub_le _ _) hlt
    simpa using inPlace_setPage hc hset
  | previousStep _ hleave hfind =>
    have hmem := List.mem_reverse.1 (List.mem_of_find?_eq_some hfind)
    exact inPlace_enter_parent hc (by simpa using hleave) (by simpa using hmem)
      (by simpa using lastPageOf_lt s _)
  | navigatedWithin hstep =>
    refine inPlace_enter hc.toSettled (by simpa using hstep) ?_ fun a rest ha => ?_
    · have := lastPageOf_lt s s.step
      rw [commit_form]
      omega
    · simpa using hc.innermost a rest ha
  | @navigated step page hstep hne =>
    have hsettled : ({ s.commit with active := [] } : Session).Settled :=
      ⟨hc.length_pages, hc.page_lt, fun a ha => absurd ha List.not_mem_nil, hc.known⟩
    refine inPlace_enter hsettled (by simpa using hstep) ?_ fun a rest ha => by cases ha
    have := lastPageOf_lt s step
    show _ < max 1 (s.commit.form.steps.getD step {}).pages.length
    rw [commit_form]
    omega
  | added hfield htarget hstep =>
    refine inPlace_added hc rfl (fun r hr hid => ?_) (by simpa using hstep)
    obtain ⟨r', hr', heq⟩ := exists_id_of_commit hr
    exact hfresh r' hr' (heq.trans hid)
  | opened hrecord hstep =>
    obtain ⟨r', hr', hframe⟩ := FormData.record?_of_frames_eq (frames_commit s) hrecord
    have hstep' := (ChildRecord.frame_eq_iff.1 hframe).2.2.2 ▸ hstep
    exact inPlace_opened hc hr' (by simpa using hstep')
  | deletedOther hne hactive => exact inPlace_dropRecord h _ hactive
  | deletedActive hne hactive =>
    exact inPlace_goBack (settled_dropRecord h.toSettled _ (fun a ha => mem_keptActive ha) ∅)
      (Nat.zero_lt_of_lt h.step_lt)
  | finished =>
    exact inPlace_goBack (settled_leaveScope (inPlace_save h).toSettled)
      (Nat.zero_lt_of_lt (inPlace_save h).step_lt)
  | cancelled => exact inPlace_cancel h

theorem inPlace_start {f : Form} {s : Session} (h : start f = .ok s) : s.InPlace := by
  obtain ⟨first, rest, hsteps, rfl⟩ := eq_of_start h
  have hlt : 0 < f.steps.length := by simp [hsteps]
  refine ⟨⟨by simp, fun i hi => ?_, fun a ha => absurd ha List.not_mem_nil,
    fun r hr => absurd hr List.not_mem_nil⟩, hlt, ?_, fun a rest ha => by cases ha⟩
  · have hi : i < f.steps.length := hi
    simp [pageOf, List.getD_eq_getElem?_getD, hi]
  · simp [isVisited, currentStep, hsteps, SortedMap.contains, SortedMap.get?_insert]

theorem exists_start {f : Form} (h : f.steps ≠ []) : ∃ s, start f = .ok s ∧ s.form = f := by
  unfold start
  split
  · next hnil => exact absurd hnil h
  · exact ⟨_, rfl, rfl⟩

theorem form_perform (s : Session) (a : SessionAction) : (s.perform a).form = s.form := by
  have hout := s.outcome_perform a
  generalize s.perform a = t at hout
  cases hout with
  | failed | edited | spoken | deletedOther | deletedActive | cancelled => rfl
  | nextEnd | previousEnd | nextPage | nextStep | previousPage | previousStep | navigatedWithin
  | navigated | added | opened => exact commit_form s
  | saved | finished =>
    obtain ⟨failures, hsave⟩ := s.save_eq
    rw [hsave]
    exact commit_form s

theorem form_run (s : Session) (actions : List SessionAction) : (s.run actions).form = s.form := by
  induction actions generalizing s with
  | nil => rfl
  | cons a actions ih => exact (ih (s.perform a)).trans (form_perform s a)

/-! ## What standing in place gives -/

/-- The page shown is missing only in a step without pages. -/
theorem currentPage?_eq_none_iff {s : Session} (h : s.InPlace) :
    s.currentPage? = none ↔ s.currentStep.pages = [] := by
  have hlt : s.page < max 1 s.currentStep.pages.length := h.page_lt s.step h.step_lt
  rw [currentPage?, List.getElem?_eq_none_iff, ← List.length_eq_zero_iff]
  omega

theorem commitWarnings_eq_nil {s : Session} (h : s.InPlace) : s.commitWarnings = [] := by
  unfold commitWarnings
  split
  · next a rest ha =>
    obtain ⟨r, hr, _⟩ := h.innermost a rest ha
    simp [hr]
  · rfl

theorem eq_of_mem_validationWarnings {f : Field} {x : Option Answer} {w : Warning}
    (h : w ∈ f.validationWarnings x) : w = .invalidFormat f.id := by
  unfold Field.validationWarnings at h
  split at h
  · exact List.mem_singleton.1 h
  · exact absurd h List.not_mem_nil

theorem vanished_not_mem_saveWarnings {s : Session} (h : s.InPlace) (id : String) :
    .vanishedRecord id ∉ s.saveWarnings := by
  unfold saveWarnings
  dsimp only
  rw [commitWarnings_eq_nil h, List.nil_append, List.mem_flatMap]
  rintro ⟨f, _, hw⟩
  cases eq_of_mem_validationWarnings hw

/-- No action meets a record being edited that is gone. -/
theorem vanished_not_mem_warnings {s : Session} (h : s.InPlace) (a : SessionAction) (id : String) :
    .vanishedRecord id ∉ s.warnings a := by
  cases a with
  | save => exact vanished_not_mem_saveWarnings h id
  | finish => exact vanished_not_mem_saveWarnings h id
  | edit field x =>
    show _ ∉ ((s.currentStep.field? field).map fun f => f.validationWarnings (some x)).getD []
    cases s.currentStep.field? field with
    | none => exact List.not_mem_nil
    | some f => exact fun hw => by cases eq_of_mem_validationWarnings hw
  | setLanguage | deleteRecord | cancel => exact List.not_mem_nil
  | next | previous | navigate | addRecord | openRecord =>
    simp [warnings, commitWarnings_eq_nil h]

/-- From the start of any form with a step, every run stands in place: at a step of the form, that
of the innermost record being edited, at a page of it if it has one. Whatever records are still
being edited, the step to return to is one of the form, and no answers are committed to a record
that is gone. -/
theorem inPlace_run {f : Form} (hsteps : f.steps ≠ []) :
    ∃ s₀, start f = .ok s₀ ∧ ∀ actions, s₀.FreshRun actions →
      (s₀.run actions).form = f ∧ (s₀.run actions).InPlace ∧
        ((s₀.run actions).currentPage? = none ↔ (s₀.run actions).currentStep.pages = []) ∧
        (∀ active, ({ s₀.run actions with active } : Session).returnStep < f.steps.length) ∧
        ∀ a id, .vanishedRecord id ∉ (s₀.run actions).warnings a := by
  obtain ⟨s₀, hstart, hform⟩ := exists_start hsteps
  refine ⟨s₀, hstart, fun actions hfresh => ?_⟩
  have hrun : (s₀.run actions).form = f := (form_run s₀ actions).trans hform
  have hin : (s₀.run actions).InPlace :=
    run_induction (fun _ _ h hf => inPlace_perform h hf) (inPlace_start hstart) hfresh
  refine ⟨hrun, hin, currentPage?_eq_none_iff hin, fun active => ?_, vanished_not_mem_warnings hin⟩
  have hlt := returnStep_lt ({ s₀.run actions with active } : Session)
    (Nat.zero_lt_of_lt hin.step_lt)
  exact hrun ▸ hlt

/-- Two records deep, the session stands at the step of the inner one. -/
theorem inPlace_run_nested : nestedForm.steps ≠ [] ∧ ∃ s₀, start nestedForm = .ok s₀ ∧
    s₀.FreshRun nestedRun ∧ (s₀.run nestedRun).InPlace ∧
      (s₀.run nestedRun).active.map (·.id) = ["b", "a"] ∧
      (s₀.run nestedRun).currentStep.id = "firm" := by
  have hsteps : nestedForm.steps ≠ [] := List.cons_ne_nil _ _
  obtain ⟨s₀, hstart, hrun⟩ := inPlace_run hsteps
  have hfresh : s₀.FreshRun nestedRun := freshRun_of_start hstart (by decide)
  refine ⟨hsteps, s₀, hstart, hfresh, (hrun nestedRun hfresh).2.1, ?_⟩
  cases hstart
  decide

end Questionnaire.Session
