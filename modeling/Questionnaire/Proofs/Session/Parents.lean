import Mathlib
import Questionnaire.Proofs.Session.Soundness
import Questionnaire.Proofs.Step.Parents

/-
  Where a session stands outside all records.

  In a form without a circle of references, a user who navigates to parent steps only is outside
  all records at a parent step, until the last record is left at a step that no parent step
  references: then the step to return to, the first one that references it, is a child step
  (`finish_leaves_parents`). `atParent_perform_iff` says so for one action and `atParent_run` for
  runs.
-/

namespace Questionnaire.Session

/-! ## States and actions -/

/-- The session is outside all records at a parent step, or inside a record. -/
def AtParent (s : Session) : Prop := s.active = [] → s.form.isParent s.step

/-- A parent step references the current one. -/
def UnderParent (s : Session) : Prop := ∃ t ∈ s.form.parents, t.referencesStep s.currentStep.id

/-- An action ends the editing of all records. -/
def EndsEditing (s : Session) (a : SessionAction) : Prop :=
  s.active ≠ [] ∧ (s.perform a).active = []

/-- Navigation goes to parent steps, and records are not removed around a user who stands at a step
that no parent step references. -/
def Guided (s : Session) : SessionAction → Prop
  | .navigate step _ => s.form.isParent step
  | .deleteRecord id => s.EndsEditing (.deleteRecord id) → s.UnderParent
  | _ => True

/-- The last record is finished at a step that a parent step references. -/
def FinishesUnderParent (s : Session) : SessionAction → Prop
  | .finish => s.EndsEditing .finish → s.UnderParent
  | _ => True

/-- Something holds in every state of a run. -/
def Throughout (P : Session → Prop) (s : Session) : List SessionAction → Prop
  | [] => P s
  | a :: actions => P s ∧ (s.perform a).Throughout P actions

/-- Something holds of every action of a run, in the state in which it is made. -/
def Along (P : Session → SessionAction → Prop) (s : Session) : List SessionAction → Prop
  | [] => True
  | a :: actions => P s a ∧ (s.perform a).Along P actions

instance (s : Session) : Decidable s.AtParent := inferInstanceAs (Decidable (_ → _))

instance (s : Session) : Decidable s.UnderParent :=
  inferInstanceAs (Decidable (∃ t ∈ _, _))

instance (s : Session) (a : SessionAction) : Decidable (s.EndsEditing a) :=
  inferInstanceAs (Decidable (_ ∧ _))

instance (s : Session) : DecidablePred s.Guided
  | .navigate _ _ => inferInstanceAs (Decidable (_ = _))
  | .deleteRecord _ => inferInstanceAs (Decidable (_ → _))
  | .edit _ _ | .setLanguage _ | .save | .next | .previous | .addRecord _ _ | .openRecord _
  | .finish | .cancel => .isTrue trivial

instance (s : Session) : DecidablePred s.FinishesUnderParent
  | .finish => inferInstanceAs (Decidable (_ → _))
  | .edit _ _ | .setLanguage _ | .save | .next | .previous | .navigate _ _ | .addRecord _ _
  | .openRecord _ | .deleteRecord _ | .cancel => .isTrue trivial

instance decidableAlong {P : Session → SessionAction → Prop} [∀ s, DecidablePred (P s)]
    (s : Session) : DecidablePred (s.Along P)
  | [] => .isTrue trivial
  | a :: actions =>
    have := decidableAlong (P := P) (s.perform a) actions
    inferInstanceAs (Decidable (P s a ∧ (s.perform a).Along P actions))

/-- What every action keeps under a condition holds after a run along which it is met. -/
theorem run_induction_along {P : Session → SessionAction → Prop} {motive : Session → Prop}
    (hstep : ∀ s a, motive s → s.Fresh a → P s a → motive (s.perform a)) {s : Session}
    {actions : List SessionAction} (hs : motive s) (hfresh : s.FreshRun actions)
    (h : s.Along P actions) : motive (s.run actions) := by
  induction actions generalizing s with
  | nil => exact hs
  | cons a actions ih => exact ih (hstep s a hs hfresh.1 h.1) hfresh.2 h.2

theorem Throughout.here {P : Session → Prop} {s : Session} {actions : List SessionAction}
    (h : s.Throughout P actions) : P s := by
  cases actions with
  | nil => exact h
  | cons => exact h.1

theorem Reached.currentStep_mem {p : Package} {s : Session} (h : Reached (Form.compile p) s) :
    s.currentStep ∈ p.discoveredSteps :=
  Package.mem_steps_compile.1 (h.form_eq ▸ Session.currentStep_mem h.inPlace)

theorem currentStep_mem_parents {s : Session} (h : s.form.isParent s.step) :
    s.currentStep ∈ s.form.parents := by
  obtain ⟨t, ht, hnot⟩ := Form.isParent_iff.1 h
  rw [currentStep, List.getD_eq_getElem?_getD, ht, Option.getD_some]
  exact List.mem_filter.2 ⟨List.mem_of_getElem? ht, by simp [hnot]⟩

/-! ## The step to return to -/

section Return

variable {s : Session} (hf : s.form.ParentsFirst) (hactive : s.active = [])

include hactive in
theorem returnStep_of_nil :
    s.returnStep = (s.form.referencingIndex? s.currentStep.id).getD 0 := by
  simp [returnStep, hactive]

include hf hactive

theorem isParent_returnStep (h : s.UnderParent) : s.form.isParent s.returnStep := by
  rw [returnStep_of_nil hactive]
  cases hi : s.form.referencingIndex? s.currentStep.id with
  | none => exact hf.first
  | some i => exact (hf.isParent_referencingIndex? hi).2 h

theorem underParent_of_isParent_returnStep (h : s.form.isParent s.returnStep)
    (href : isReferenced s.form.steps s.currentStep.id) : s.UnderParent := by
  rw [returnStep_of_nil hactive] at h
  cases hi : s.form.referencingIndex? s.currentStep.id with
  | none =>
    obtain ⟨t, ht, htref⟩ := List.any_eq_true.1 href
    exact absurd htref (List.findIdx?_eq_none_iff.1 hi t ht ▸ Bool.false_ne_true)
  | some i =>
    rw [hi] at h
    exact (hf.isParent_referencingIndex? hi).1 h

/-- From a parent step the user returns to the first step, which is a parent. -/
theorem isParent_returnStep_of_isParent (h : s.form.isParent s.step) :
    s.form.isParent s.returnStep := by
  rw [returnStep_of_nil hactive]
  cases hi : s.form.referencingIndex? s.currentStep.id with
  | none => exact hf.first
  | some i =>
    have hnot := (List.mem_filter.1 (currentStep_mem_parents h)).2
    obtain ⟨hlt, href, -⟩ := List.findIdx?_eq_some_iff_getElem.1 hi
    have hany : isReferenced s.form.steps s.currentStep.id = true :=
      List.any_eq_true.2 ⟨_, List.getElem_mem hlt, href⟩
    rw [hany] at hnot
    cases hnot

end Return

/-- While a record is being edited, some step references the current one. -/
theorem isReferenced_currentStep {s : Session} (h : s.InPlace) (hs : s.Sound)
    (hactive : s.active ≠ []) : isReferenced s.form.steps s.currentStep.id := by
  obtain ⟨a, rest, ha⟩ := List.exists_cons_of_ne_nil hactive
  obtain ⟨r, hr, hstep⟩ := step?_innermost h ha
  have hid : s.currentStep.id = r.step := (Form.mem_of_step? hstep).2
  have hmem := FormData.mem_of_record? hr
  obtain ⟨t, ht, f, hfield, -, htarget⟩ : ∃ t ∈ s.form.steps, t.Offers r.field r.step := by
    cases howner : r.owner with
    | none => exact hs.data.free r hmem howner
    | some p =>
      obtain ⟨before, after, hsplit⟩ := List.append_of_mem hmem
      obtain ⟨o, -, -, t, ht, hoffers⟩ := hs.data.owned before r after hsplit p howner
      exact ⟨t, (Form.mem_of_step? ht).1, hoffers⟩
  rw [StepOrder.isReferenced_iff]
  exact ⟨t, ht, StepOrder.mem_targets.2 ⟨f, hfield, hid ▸ htarget⟩⟩

/-! ## One action -/

theorem perform_finish (s : Session) : s.perform .finish = s.save.2.leaveScope.goBack := s.finish_eq

/-- Finishing the last record leads to a parent step exactly when a parent step references the one
that is left. -/
theorem atParent_finish_iff {s : Session} (h : s.InPlace) (hs : s.Sound)
    (hf : s.form.ParentsFirst) (hat : s.AtParent) :
    (s.perform .finish).AtParent ↔ s.FinishesUnderParent .finish := by
  obtain ⟨failures, hsave⟩ := s.save_eq
  rw [FinishesUnderParent, EndsEditing, perform_finish]
  -- The step to return to is looked for after the innermost record is left, from the same step.
  generalize ht : s.save.2.leaveScope = t
  have hform : t.form = s.form := by rw [← ht, hsave]; exact commit_form s
  have hstep : t.step = s.step := by rw [← ht, hsave]; exact commit_step s
  have hactive : t.active = s.active.tail := by
    rw [← ht, hsave]
    exact congrArg List.tail (commit_active s)
  have hcurrent : t.currentStep = s.currentStep := by rw [currentStep, hform, hstep, currentStep]
  have hunder : t.UnderParent ↔ s.UnderParent := by rw [UnderParent, hform, hcurrent, UnderParent]
  rw [← hform] at hf
  constructor
  · rintro hgo ⟨hne, hnil⟩
    have href := isReferenced_currentStep h hs hne
    rw [← hform, ← hcurrent] at href
    exact hunder.1 (underParent_of_isParent_returnStep hf hnil (hgo hnil) href)
  · intro hfinish hnil
    have hnil : t.active = [] := hnil
    cases hopen : s.active with
    | nil =>
      have hparent : t.form.isParent t.step := by rw [hform, hstep]; exact hat hopen
      exact isParent_returnStep_of_isParent hf hnil hparent
    | cons a rest =>
      exact isParent_returnStep hf hnil (hunder.2 (hfinish ⟨by simp [hopen], hnil⟩))

theorem atParent_perform_iff {s : Session} {a : SessionAction} (h : s.InPlace) (hs : s.Sound)
    (hf : s.form.ParentsFirst) (hat : s.AtParent) (hguided : s.Guided a) :
    (s.perform a).AtParent ↔ s.FinishesUnderParent a := by
  rcases Decidable.em (a = .finish) with rfl | hne
  · exact atParent_finish_iff h hs hf hat
  have htrue : s.FinishesUnderParent a := by
    cases a with
    | finish => exact absurd rfl hne
    | _ => trivial
  refine iff_of_true ?_ htrue
  have hc : s.commit.AtParent := by simpa [AtParent] using hat
  have hout := s.outcome_perform a
  generalize hperform : s.perform a = t at hout
  cases hout with
  | failed => exact hat
  | edited => exact hat
  | spoken => exact hat
  | saved =>
    obtain ⟨failures, hsave⟩ := s.save_eq
    rw [hsave]
    exact hc
  | nextPage | nextEnd | previousPage | previousEnd => exact hc
  | nextStep _ _ hfind =>
    intro _
    simpa [enter] using Form.mem_parentIndices.1 (List.mem_of_find?_eq_some hfind)
  | previousStep _ _ hfind =>
    intro _
    have hmem := List.mem_reverse.1 (List.mem_of_find?_eq_some hfind)
    simpa [enter] using Form.mem_parentIndices.1 hmem
  | navigatedWithin => simpa [AtParent, enter] using hat
  | navigated =>
    intro _
    have hparent : s.form.isParent _ := hguided
    simpa [enter] using hparent
  | added => exact fun hnil => by cases hnil
  | opened => exact fun hnil => by cases hnil
  | deletedOther => exact hat
  | @deletedActive id hremoved hactive =>
    intro hnil
    obtain ⟨a, ha, -⟩ := hactive
    have hunder : s.UnderParent := hguided ⟨List.ne_nil_of_mem ha, hperform ▸ hnil⟩
    let t : Session := { s.dropRecord id with
      active := keptActive s.active ((s.data.removed id).map (·.id)), draft := ∅ }
    exact isParent_returnStep (s := t) hf hnil hunder
  | finished => exact absurd rfl hne
  | cancelled => exact fun _ => hf.first

/-! ## Runs -/

theorem throughout_atParent_iff {s : Session} {actions : List SessionAction} (h : s.InPlace)
    (hs : s.Sound) (hf : s.form.ParentsFirst) (hat : s.AtParent) (hfresh : s.FreshRun actions)
    (hguided : s.Along Guided actions) :
    s.Throughout AtParent actions ↔ s.Along FinishesUnderParent actions := by
  induction actions generalizing s with
  | nil => exact iff_of_true hat trivial
  | cons a actions ih =>
    have hnext := atParent_perform_iff h hs hf hat hguided.1
    have hin := inPlace_perform h hfresh.1
    have hsound := sound_perform h hs hfresh.1
    have hform : (s.perform a).form.ParentsFirst := (form_perform s a).symm ▸ hf
    constructor
    · intro hall
      have hthere : (s.perform a).AtParent := hall.2.here
      exact ⟨hnext.1 hthere,
        (ih hin hsound hform hthere hfresh.2 hguided.2).1 hall.2⟩
    · intro hall
      exact ⟨hat, (ih hin hsound hform (hnext.2 hall.1) hfresh.2 hguided.2).2 hall.2⟩

/-- In a compiled form without a circle of references, a guided run from the start is outside all
records at parent steps only, exactly when the last record being edited is always finished at a
step that a parent step references. -/
theorem atParent_run {p : Package} (hsteps : (Form.compile p).steps ≠ [])
    (hcycle : (Form.compile p).cycle = none) :
    ∃ s₀, start (Form.compile p) = .ok s₀ ∧ ∀ actions, s₀.FreshRun actions →
      s₀.Along Guided actions →
      (s₀.Throughout AtParent actions ↔ s₀.Along FinishesUnderParent actions) := by
  obtain ⟨s₀, hstart, hform⟩ := exists_start hsteps
  have hparents : s₀.form.ParentsFirst := hform ▸ Form.parentsFirst_compile hsteps hcycle
  have hat : s₀.AtParent := by
    obtain ⟨first, rest, -, rfl⟩ := eq_of_start hstart
    exact fun _ => hparents.first
  exact ⟨s₀, hstart, fun actions hfresh hguided =>
    throughout_atParent_iff (inPlace_start hstart) (sound_start hstart) hparents hat hfresh hguided⟩

/-! ## Two runs -/

theorem of_start {P : Session → Prop} [DecidablePred P] {f : Form} {s : Session}
    (hstart : start f = .ok s) (h : (start f).toOption.any fun s => P s) : P s := by
  rw [hstart] at h
  simpa [Except.toOption] using h

theorem steps_nestedPackage : (Form.compile nestedPackage).steps ≠ [] := by
  have hlength : (Form.compile nestedPackage).steps.length = 3 := by cbv
  exact List.ne_nil_of_length_eq_add_one hlength

theorem cycle_nestedPackage : (Form.compile nestedPackage).cycle = none := by cbv

/-- A run that reopens an inner record and goes back to its owner. -/
def homeRun : List SessionAction := [
  .addRecord "author" "a", .addRecord "employer" "b", .finish, .openRecord "b", .finish, .finish,
  .openRecord "a", .openRecord "b", .cancel, .openRecord "a", .deleteRecord "a"]

theorem along_homeRun : (start (Form.compile nestedPackage)).toOption.any fun s =>
    s.Along Guided homeRun ∧ s.Along FinishesUnderParent homeRun := by cbv

/-- Inner records reopened within their owners lead back to a parent step. -/
theorem atParent_run_home : (Form.compile nestedPackage).steps ≠ [] ∧
    (Form.compile nestedPackage).cycle = none ∧
    ∃ s₀, start (Form.compile nestedPackage) = .ok s₀ ∧ s₀.FreshRun homeRun ∧
      s₀.Along Guided homeRun ∧ s₀.Throughout AtParent homeRun := by
  obtain ⟨s₀, hstart, hrun⟩ := atParent_run steps_nestedPackage cycle_nestedPackage
  have hfresh : s₀.FreshRun homeRun := freshRun_of_start hstart (by decide)
  obtain ⟨hguided, hfinishes⟩ := of_start hstart along_homeRun
  exact ⟨steps_nestedPackage, cycle_nestedPackage, s₀, hstart, hfresh, hguided,
    (hrun homeRun hfresh hguided).2 hfinishes⟩

/-- A run that reopens an inner record outside its owner. -/
def detour : List SessionAction := [
  .addRecord "author" "a", .addRecord "employer" "b", .finish, .finish, .openRecord "b", .finish]

theorem end_detour : (start (Form.compile nestedPackage)).toOption.any fun s =>
    (s.run detour).active = [] ∧ (s.run detour).form.isParent (s.run detour).step = false := by cbv

/-- Finishing an inner record that was reopened outside its owner leads to a child step. -/
theorem finish_leaves_parents : (Form.compile nestedPackage).steps ≠ [] ∧
    (Form.compile nestedPackage).cycle = none ∧
    ∃ s₀, start (Form.compile nestedPackage) = .ok s₀ ∧ s₀.FreshRun detour ∧
      (∀ step page, .navigate step page ∉ detour) ∧ (s₀.run detour).active = [] ∧
      (s₀.run detour).form.isParent (s₀.run detour).step = false := by
  obtain ⟨s₀, hstart, -⟩ := exists_start steps_nestedPackage
  exact ⟨steps_nestedPackage, cycle_nestedPackage, s₀, hstart,
    freshRun_of_start hstart (by decide), by simp [detour], of_start hstart end_detour⟩

end Questionnaire.Session
