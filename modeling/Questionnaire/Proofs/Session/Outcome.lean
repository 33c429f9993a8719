import Questionnaire.Proofs.Answer.Records
import Questionnaire.Session.Run

/-
  What an action of a session does.

  `Outcome` lists the ways in which an action can end, each with what was checked on the way and
  the session after it; `outcome_perform` says that there are no others. Every invariant of runs
  is one case analysis of `Outcome`.
-/

namespace Questionnaire.Session

/-! ## Committing -/

section Commit

variable (s : Session)

/-- Committing changes the draft and the answers, and nothing else. -/
theorem commit_eq : s.commit = { s with draft := s.commit.draft, data := s.commit.data } := by
  unfold commit
  split <;> rfl

@[simp] theorem commit_form : s.commit.form = s.form := by rw [commit_eq]

@[simp] theorem commit_language : s.commit.language = s.language := by rw [commit_eq]

@[simp] theorem commit_step : s.commit.step = s.step := by rw [commit_eq]

@[simp] theorem commit_pages : s.commit.pages = s.pages := by rw [commit_eq]

@[simp] theorem commit_visited : s.commit.visited = s.visited := by rw [commit_eq]

@[simp] theorem commit_active : s.commit.active = s.active := by rw [commit_eq]

@[simp] theorem commit_failures : s.commit.failures = s.failures := by rw [commit_eq]

@[simp] theorem commit_currentStep : s.commit.currentStep = s.currentStep := by
  simp [currentStep]

@[simp] theorem commit_page : s.commit.page = s.page := by simp [page, pageOf]

@[simp] theorem commit_scope : s.commit.scope = s.scope := by simp [scope]

@[simp] theorem commit_mayLeave : s.commit.mayLeave = s.mayLeave := by simp [mayLeave]

@[simp] theorem commit_isLastPage : s.commit.isLastPage = s.isLastPage := by simp [isLastPage]

@[simp] theorem commit_isFirstPage : s.commit.isFirstPage = s.isFirstPage := by
  simp [isFirstPage]

@[simp] theorem commit_lastPageOf : s.commit.lastPageOf = s.lastPageOf := by
  funext step
  simp [lastPageOf]

theorem commit_draft : s.commit.draft.isEmpty := by
  unfold commit
  split
  · assumption
  · rfl

end Commit

/-! ## Filing -/

/-- Filing a draft changes the values of records and nothing else about them. -/
theorem frames_file (d : FormData) (draft : Values) (scope : Scope) :
    (file d draft scope).frames = d.frames := by
  cases scope with
  | step id => rfl
  | record id => exact FormData.frames_modifyRecord fun _ => rfl

@[simp] theorem frames_commit (s : Session) : s.commit.data.frames = s.data.frames := by
  unfold commit
  split
  · rfl
  · exact frames_file _ _ _

/-! ## Noting failures -/

/-- Noting failures changes nothing but the failures. -/
theorem foldl_note_eq (s : Session) (outcomes : List (String × Option Rejection)) :
    ∃ failures, outcomes.foldl (fun s o => s.note o.1 o.2) s = { s with failures } := by
  induction outcomes generalizing s with
  | nil => exact ⟨s.failures, rfl⟩
  | cons o outcomes ih =>
    obtain ⟨failures, h⟩ := ih (s.note o.1 o.2)
    exact ⟨failures, h⟩

/-- Saving commits and notes failures. -/
theorem save_eq (s : Session) : ∃ failures, s.save.2 = { s.commit with failures } :=
  foldl_note_eq s.commit s.commit.pageOutcomes

/-! ## Outcomes -/

/-- The session after leaving the innermost scope, still at the place that is left. -/
def leaveScope (s : Session) : Session :=
  { s with
    visited := if s.form.isParent s.step then s.visited else s.visited.erase s.currentStep.id
    active := s.active.tail }

/-- The session at the last page shown of the step to return to. -/
def goBack (s : Session) : Session := s.enter s.returnStep (s.pageOf s.returnStep)

/-- The session without a record and those nested in it, its place and draft unchanged. -/
def dropRecord (s : Session) (id : String) : Session :=
  { s with
    data := s.data.removeRecord id
    failures := s.failures.forget ((s.data.removed id).map (·.id)) }

/-- The session editing one more record. -/
def push (s : Session) (a : ActiveRecord) : Session := { s with active := a :: s.active }

/-- How an action of a session can end, with the session after it. -/
inductive Outcome (s : Session) : SessionAction → Session → Prop
  | failed {a e} (herror : s.error? a = some e) : Outcome s a s
  | edited {field x f} (hfield : s.currentStep.field? field = some f) :
      Outcome s (.edit field x)
        { s.note field (f.validate (some x) s.language) with draft := s.draft.insert field x }
  | spoken {language} : Outcome s (.setLanguage language) { s with language }
  | saved : Outcome s .save s.save.2
  | nextPage (hpage : s.page + 1 < s.currentStep.pages.length) :
      Outcome s .next { s.commit with pages := s.pages.set s.step (s.page + 1) }
  | nextStep {step} (hpage : s.currentStep.pages.length ≤ s.page + 1)
      (hleave : s.mayLeave = true)
      (hfind : s.form.parentIndices.find? (s.step < ·) = some step) :
      Outcome s .next (s.commit.enter step 0)
  | nextEnd (hpage : s.currentStep.pages.length ≤ s.page + 1)
      (hfind : s.mayLeave = true → s.form.parentIndices.find? (s.step < ·) = none) :
      Outcome s .next s.commit
  | previousPage (hpage : s.page ≠ 0) :
      Outcome s .previous { s.commit with pages := s.pages.set s.step (s.page - 1) }
  | previousStep {step} (hpage : s.page = 0) (hleave : s.mayLeave = true)
      (hfind : s.form.parentIndices.reverse.find? (· < s.step) = some step) :
      Outcome s .previous (s.commit.enter step (s.lastPageOf step))
  | previousEnd (hpage : s.page = 0)
      (hfind : s.mayLeave = true → s.form.parentIndices.reverse.find? (· < s.step) = none) :
      Outcome s .previous s.commit
  | navigatedWithin {page} (hstep : s.step < s.form.steps.length) :
      Outcome s (.navigate s.step page)
        (s.commit.enter s.step (min page (s.lastPageOf s.step)))
  | navigated {step page} (hstep : step < s.form.steps.length) (hne : step ≠ s.step) :
      Outcome s (.navigate step page)
        (({ s.commit with active := [] } : Session).enter step (min page (s.lastPageOf step)))
  | added {field fresh f target step} (hfield : s.currentStep.field? field = some f)
      (htarget : f.referenceTarget? = some target)
      (hstep : s.form.stepIndex? target = some step) :
      Outcome s (.addRecord field fresh)
        ((({ s.commit with
              data := s.commit.data.addRecord
                { id := fresh, field, owner := s.active.head?.map (·.id), step := target } }
            : Session).push ⟨fresh, field, true⟩).enter step 0)
  | opened {id r step} (hrecord : s.data.record? id = some r)
      (hstep : s.form.stepIndex? r.step = some step) :
      Outcome s (.openRecord id) ((s.commit.push ⟨id, r.field, false⟩).enter step 0)
  | deletedOther {id} (hne : s.data.removed id ≠ [])
      (hactive : ∀ a ∈ s.active, a.id ∉ (s.data.removed id).map (·.id)) :
      Outcome s (.deleteRecord id) (s.dropRecord id)
  | deletedActive {id} (hne : s.data.removed id ≠ [])
      (hactive : ∃ a ∈ s.active, a.id ∈ (s.data.removed id).map (·.id)) :
      Outcome s (.deleteRecord id)
        ({ s.dropRecord id with
          active := keptActive s.active ((s.data.removed id).map (·.id)), draft := ∅ }
          : Session).goBack
  | finished : Outcome s .finish s.save.2.leaveScope.goBack
  | cancelled : Outcome s .cancel s.cancel

section Perform

variable (s : Session)

theorem field_eq (id : String) : s.field id =
    match s.currentStep.field? id with
    | some f => .ok f
    | none => .error (.unknownField s.currentStep.id id) := rfl

theorem outcome_edit (field : String) (x : Answer) :
    Outcome s (.edit field x) (s.orSelf (s.edit field x)) := by
  cases hf : s.currentStep.field? field with
  | none =>
    have h : s.edit field x = .error (.unknownField s.currentStep.id field) := by
      simp [edit, field_eq, hf, bind, Except.bind]
    rw [h]
    exact .failed (by rw [error?, h, error?.errorOf])
  | some f =>
    have h : s.edit field x = .ok (f.validate (some x) s.language,
        { s.note field (f.validate (some x) s.language) with
          draft := s.draft.insert field x }) := by
      simp [edit, field_eq, hf, bind, Except.bind, pure, Except.pure]
    rw [h]
    exact .edited hf

theorem outcome_next : Outcome s .next s.next.2 := by
  cases hlast : s.isLastPage with
  | false =>
    have h : s.next.2 = { s.commit with pages := s.pages.set s.step (s.page + 1) } := by
      simp [next, hlast]
    rw [h]
    exact .nextPage (by simpa [isLastPage] using hlast)
  | true =>
    have hpage : s.currentStep.pages.length ≤ s.page + 1 := by simpa [isLastPage] using hlast
    cases hleave : s.mayLeave with
    | false =>
      have h : s.next.2 = s.commit := by simp [next, hlast, hleave]
      rw [h]
      exact .nextEnd hpage fun h => by simp [hleave] at h
    | true =>
      cases hfind : s.form.parentIndices.find? (s.step < ·) with
      | none =>
        have h : s.next.2 = s.commit := by simp [next, hlast, hleave, hfind]
        rw [h]
        exact .nextEnd hpage fun _ => hfind
      | some step =>
        have h : s.next.2 = s.commit.enter step 0 := by simp [next, hlast, hleave, hfind]
        rw [h]
        exact .nextStep hpage hleave hfind

theorem outcome_previous : Outcome s .previous s.previous.2 := by
  cases hfirst : s.isFirstPage with
  | false =>
    have h : s.previous.2 = { s.commit with pages := s.pages.set s.step (s.page - 1) } := by
      simp [previous, hfirst]
    rw [h]
    exact .previousPage (by simpa [isFirstPage] using hfirst)
  | true =>
    have hpage : s.page = 0 := by simpa [isFirstPage] using hfirst
    cases hleave : s.mayLeave with
    | false =>
      have h : s.previous.2 = s.commit := by simp [previous, hfirst, hleave]
      rw [h]
      exact .previousEnd hpage fun h => by simp [hleave] at h
    | true =>
      cases hfind : s.form.parentIndices.reverse.find? (· < s.step) with
      | none =>
        have h : s.previous.2 = s.commit := by simp [previous, hfirst, hleave, hfind]
        rw [h]
        exact .previousEnd hpage fun _ => hfind
      | some step =>
        have h : s.previous.2 = s.commit.enter step (s.lastPageOf step) := by
          simp [previous, hfirst, hleave, hfind]
        rw [h]
        exact .previousStep hpage hleave hfind

theorem outcome_navigate (step page : Nat) : Outcome s (.navigate step page)
    (s.orSelf ((s.navigate step page).map ((), ·))) := by
  cases hs : s.form.steps[step]? with
  | none =>
    have h : s.navigate step page = .error (.stepOutOfRange step s.form.steps.length) := by
      simp [navigate, Form.stepAt, hs, bind, Except.bind]
    rw [h]
    exact .failed (by rw [error?, h, error?.errorOf])
  | some t =>
    obtain ⟨hlt, _⟩ := List.getElem?_eq_some_iff.1 hs
    rcases Decidable.em (step = s.step) with rfl | hne
    · have h : s.navigate s.step page =
          .ok (s.commit.enter s.step (min page (s.lastPageOf s.step))) := by
        simp [navigate, Form.stepAt, hs, bind, Except.bind, pure, Except.pure]
      rw [h]
      exact .navigatedWithin hlt
    · have h : s.navigate step page = .ok (({ s.commit with active := [] } : Session).enter step
          (min page (s.lastPageOf step))) := by
        simp [navigate, Form.stepAt, hs, hne, bind, Except.bind, pure, Except.pure, lastPageOf]
      rw [h]
      exact .navigated hlt hne

theorem outcome_addRecord (field fresh : String) :
    Outcome s (.addRecord field fresh) (s.orSelf (s.addRecord field fresh)) := by
  cases hf : s.currentStep.field? field with
  | none =>
    have h : s.addRecord field fresh = .error (.unknownField s.currentStep.id field) := by
      simp [addRecord, field_eq, hf, bind, Except.bind]
    rw [h]
    exact .failed (by rw [error?, h, error?.errorOf])
  | some f =>
    cases ht : f.referenceTarget? with
    | none =>
      have h : s.addRecord field fresh = .error (.notAReference field) := by
        simp [addRecord, field_eq, hf, ht, bind, Except.bind]
      rw [h]
      exact .failed (by rw [error?, h, error?.errorOf])
    | some target =>
      cases hi : s.form.stepIndex? target with
      | none =>
        have h : s.addRecord field fresh = .error (.unknownStep target) := by
          simp [addRecord, field_eq, hf, ht, hi, bind, Except.bind]
        rw [h]
        exact .failed (by rw [error?, h, error?.errorOf])
      | some step =>
        have hout : Outcome s (.addRecord field fresh) _ := .added hf ht hi
        simpa [addRecord, field_eq, hf, ht, hi, bind, Except.bind, pure, Except.pure, orSelf,
          push] using hout

theorem outcome_openRecord (id : String) :
    Outcome s (.openRecord id) (s.orSelf ((s.openRecord id).map ((), ·))) := by
  cases hr : s.data.record? id with
  | none =>
    have h : s.openRecord id = .error (.unknownChild id) := by
      simp [openRecord, hr, bind, Except.bind]
    rw [h]
    exact .failed (by rw [error?, h, error?.errorOf])
  | some r =>
    cases hi : s.form.stepIndex? r.step with
    | none =>
      have h : s.openRecord id = .error (.unknownStep r.step) := by
        simp [openRecord, hr, hi, bind, Except.bind]
      rw [h]
      exact .failed (by rw [error?, h, error?.errorOf])
    | some step =>
      have hout : Outcome s (.openRecord id) _ := .opened hr hi
      simpa [openRecord, hr, hi, bind, Except.bind, pure, Except.pure, orSelf, Except.map, push]
        using hout

theorem outcome_deleteRecord (id : String) :
    Outcome s (.deleteRecord id) (s.orSelf (s.deleteRecord id)) := by
  cases hr : s.data.removed id with
  | nil =>
    have h : s.deleteRecord id = .error (.unknownChild id) := by rw [deleteRecord, hr]
    rw [h]
    exact .failed (by rw [error?, h, error?.errorOf])
  | cons first more =>
    have hne : s.data.removed id ≠ [] := by simp [hr]
    cases hany : s.active.any fun a => ((s.data.removed id).map (·.id)).contains a.id with
    | false =>
      have h : s.deleteRecord id = .ok (first, s.dropRecord id) := by
        rw [hr] at hany
        simp only [deleteRecord, dropRecord, hr, hany]
        rfl
      rw [h]
      refine .deletedOther hne fun a ha hid => ?_
      exact List.any_eq_false.1 hany a ha (List.contains_iff_mem.2 hid)
    | true =>
      have h : s.deleteRecord id = .ok (first, ({ s.dropRecord id with
          active := keptActive s.active ((s.data.removed id).map (·.id)), draft := ∅ }
          : Session).goBack) := by
        rw [hr] at hany
        simp only [deleteRecord, dropRecord, hr, hany]
        rfl
      rw [h]
      obtain ⟨a, ha, hid⟩ := List.any_eq_true.1 hany
      exact .deletedActive hne ⟨a, ha, List.contains_iff_mem.1 hid⟩

theorem finish_eq : s.finish.2 = s.save.2.leaveScope.goBack := by
  show (let t := if s.save.2.form.isParent s.save.2.step then s.save.2 else _
    ({ t with active := t.active.tail } : Session).goBack) = _
  unfold leaveScope
  split <;> rfl

/-- An action ends in one of the listed ways. -/
theorem outcome_perform (a : SessionAction) : Outcome s a (s.perform a) := by
  cases a with
  | edit field x => exact s.outcome_edit field x
  | setLanguage language => exact .spoken
  | save => exact .saved
  | next => exact s.outcome_next
  | previous => exact s.outcome_previous
  | navigate step page => exact s.outcome_navigate step page
  | addRecord field fresh => exact s.outcome_addRecord field fresh
  | openRecord id => exact s.outcome_openRecord id
  | deleteRecord id => exact s.outcome_deleteRecord id
  | finish =>
    show Outcome s .finish s.finish.2
    rw [finish_eq]
    exact .finished
  | cancel => exact .cancelled

end Perform

end Questionnaire.Session
