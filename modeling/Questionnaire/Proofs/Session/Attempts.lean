import Questionnaire.Proofs.Session.Nesting
import Questionnaire.Proofs.Session.Parents
import Questionnaire.Session.Attempt

/-
  An action that fails leaves the session as it was.

  An attempt writes to the session while it works. What it comes to is worked out look-up by look-up
  and write by write (`on_bind`); it is what the action of the same name gives, a failed one
  leaving the session alone (`on_ofAction`). For most actions that is so because they look
  everything up before they write. Deleting removes first and checks afterwards; when the check
  fails, nothing was removed. `failed_attempt_changes_nothing` adds when an action fails in a
  session that a run comes to: there no record and no reference leads to a step that is not there.
-/

namespace Questionnaire
namespace Attempt

variable {α β : Type}

/-! ## Running attempts -/

section Run

variable (s : Session)

theorem on_get : (get : Attempt Session).on s = (.ok s, s) := rfl

theorem on_modify (f : Session → Session) : (modify f : Attempt Unit).on s = (.ok (), f s) := rfl

theorem on_bind (t : Attempt α) (next : α → Attempt β) :
    (t >>= next).on s =
      match t.on s with
      | (.ok a, s') => (next a).on s'
      | (.error e, s') => (.error e, s') := by
  show ExceptT.bindCont next (t.on s).1 (t.on s).2 = _
  rcases t.on s with ⟨_ | _, _⟩ <;> rfl

theorem on_silent (t : Attempt α) : t.silent.on s = ((t.on s).1.map fun _ => (), (t.on s).2) := by
  rw [silent, on_bind]
  rcases t.on s with ⟨_ | _, _⟩ <;> rfl

theorem on_require (value : Option α) (e : FormError) :
    (require value e).on s = (match value with | some a => .ok a | none => .error e, s) := by
  cases value <;> rfl

theorem on_field (id : String) : (field id).on s = (s.field id, s) := by
  simp only [field, on_bind, on_get, on_require, Session.field]
  cases s.currentStep.field? id <;> rfl

end Run

theorem ok_bind (a : α) (next : α → Except FormError β) : (Except.ok a >>= next) = next a := rfl

theorem error_bind (e : FormError) (next : α → Except FormError β) :
    (Except.error e >>= next) = .error e := rfl

/-! ## What the attempts come to -/

/-- The result of an action and the session it leaves: a failed action leaves the one there was. -/
def settle (s : Session) : Except FormError (α × Session) → Except FormError α × Session
  | .ok (a, after) => (.ok a, after)
  | .error e => (.error e, s)

section Actions

variable (s : Session)

theorem on_edit (id : String) (a : Answer) : (edit id a).on s = settle s (s.edit id a) := by
  simp only [edit, Session.edit, on_bind, on_field]
  cases s.field id <;> rfl

theorem on_navigate (step page : Nat) :
    (navigate step page).on s = settle s ((s.navigate step page).map ((), ·)) := by
  simp only [navigate, on_bind, on_get, on_require, on_modify]
  cases hs : s.form.steps[step]? with
  | none =>
    simp only [Session.navigate, Form.stepAt, hs]
    rfl
  | some target =>
    have hlast (t : Session) (ht : t.form = s.form) :
        t.lastPageOf step = target.pages.length - 1 := by
      rw [Session.lastPageOf, ht, List.getD_eq_getElem?_getD, hs, Option.getD_some]
    simp only [Session.navigate, Form.stepAt, hs, ok_bind]
    show _ = (Except.ok (), Session.enter _ step (min page (Session.lastPageOf _ step)))
    rw [hlast]
    split
    · exact s.commit_form
    · exact s.commit_form

/-- The record is found again among the answers: under a fresh id it is the new one. -/
theorem on_addRecord (id fresh : String) : (addRecord id fresh).on s =
    settle s ((s.addRecord id fresh).map fun (r, after) =>
      ((after.data.record? fresh).getD r, after)) := by
  simp only [addRecord, stepIndex, record, on_bind, on_field, on_get, on_modify, on_require]
  cases hf : s.field id with
  | error e =>
    simp only [Session.addRecord, hf]
    rfl
  | ok f =>
    cases ht : f.referenceTarget? with
    | none =>
      simp only [Session.addRecord, hf, ht, ok_bind, error_bind]
      rfl
    | some target =>
      cases hi : s.form.stepIndex? target with
      | none =>
        simp only [Session.addRecord, hf, ht, hi, ok_bind, error_bind]
        rfl
      | some step =>
        simp only [Session.addRecord, hf, ht, hi, ok_bind]
        -- The look-up at the end cannot fail, since the record was just added.
        obtain ⟨r, hr⟩ := s.commit.data.exists_record?_addRecord
          { id := fresh, field := id, owner := s.commit.active.head?.map (·.id), step := target }
        simp only [Session.enter, hr]
        show _ = (Except.ok (Option.getD _ _), _)
        rw [hr]
        rfl

theorem on_openRecord (id : String) :
    (openRecord id).on s = settle s ((s.openRecord id).map ((), ·)) := by
  simp only [openRecord, stepIndex, record, on_bind, on_get, on_modify, on_require]
  cases hr : s.data.record? id with
  | none =>
    simp only [Session.openRecord, hr]
    rfl
  | some r =>
    cases hi : s.form.stepIndex? r.step with
    | none =>
      simp only [Session.openRecord, hr, hi, ok_bind]
      rfl
    | some step =>
      simp only [Session.openRecord, hr, hi, ok_bind]
      rfl

theorem on_deleteRecord (id : String) :
    (deleteRecord id).on s = settle s (s.deleteRecord id) := by
  simp only [deleteRecord, on_bind, on_get, on_modify, on_require]
  cases hremoved : s.data.removed id with
  | nil =>
    -- The removal came before the check, but took nothing away.
    have hdata := FormData.removeRecord_of_removed_eq_nil hremoved
    simp only [Session.deleteRecord, hremoved, hdata, List.head?]
    rfl
  | cons first more =>
    simp only [Session.deleteRecord, hremoved, List.head?]
    split <;> rfl

/-- The error of an action, if it fails, as the end of an attempt. -/
def ending : Option FormError → Except FormError Unit
  | none => .ok ()
  | some e => .error e

theorem forget_settle (attempt : Except FormError (α × Session)) :
    ((settle s attempt).1.map fun _ => (), (settle s attempt).2) =
      (ending (Session.error?.errorOf attempt), s.orSelf attempt) := by
  cases attempt <;> rfl

theorem settle_unit (attempt : Except FormError Session) :
    settle s (attempt.map ((), ·)) =
      (ending (Session.error?.errorOf attempt), s.orSelf (attempt.map ((), ·))) := by
  cases attempt <;> rfl

/-- An attempt ends as its action does, and leaves the session that the action leaves. -/
theorem on_ofAction (a : SessionAction) :
    (ofAction a).on s = (ending (s.error? a), s.perform a) := by
  cases a with
  | edit id x =>
    rw [ofAction, on_silent, on_edit, forget_settle]
    rfl
  | navigate step page =>
    rw [ofAction, on_navigate, settle_unit]
    rfl
  | addRecord id fresh =>
    rw [ofAction, on_silent, on_addRecord, forget_settle]
    show _ = (ending (Session.error?.errorOf (s.addRecord id fresh)),
      s.orSelf (s.addRecord id fresh))
    cases s.addRecord id fresh <;> rfl
  | openRecord id =>
    rw [ofAction, on_openRecord, settle_unit]
    rfl
  | deleteRecord id =>
    rw [ofAction, on_silent, on_deleteRecord, forget_settle]
    rfl
  | setLanguage | save | next | previous | finish | cancel => rfl

end Actions

/-- An attempt fails on a session. -/
def FailsOn (t : Attempt α) (s : Session) : Prop := ∃ e, (t.on s).1 = .error e

theorem failsOn_ofAction_iff {s : Session} {a : SessionAction} :
    (ofAction a).FailsOn s ↔ s.error? a ≠ none := by
  rw [FailsOn, on_ofAction]
  cases s.error? a with
  | none => simp [ending]
  | some e => simp [ending]

end Attempt

/-! ## When actions fail -/

instance (s : Step) (id : String) : Decidable (s.HasField id) :=
  inferInstanceAs (Decidable (∃ f ∈ s.fields, f.id = id))

theorem Step.field?_eq_none_iff {s : Step} {id : String} :
    s.field? id = none ↔ ¬ s.HasField id := by
  simp [field?, HasField]

theorem Form.exists_stepIndex? {f : Form} {id : String} (h : ∃ t ∈ f.steps, t.id = id) :
    ∃ i, f.stepIndex? id = some i := by
  obtain ⟨t, ht, hid⟩ := h
  refine Option.ne_none_iff_exists'.1 fun hnone => ?_
  have := List.findIdx?_eq_none_iff.1 hnone t ht
  simp [hid] at this

namespace Session

variable {s : Session}

theorem error?_edit (s : Session) (id : String) (x : Answer) : s.error? (.edit id x) =
    if s.currentStep.HasField id then none else some (.unknownField s.currentStep.id id) := by
  show error?.errorOf (s.edit id x) = _
  cases hf : s.currentStep.field? id with
  | none =>
    rw [if_neg (Step.field?_eq_none_iff.1 hf)]
    simp only [edit, field_eq, hf]
    rfl
  | some f =>
    rw [if_pos ⟨f, Step.field?_eq_some hf⟩]
    simp only [edit, field_eq, hf]
    rfl

theorem error?_navigate (s : Session) (step page : Nat) : s.error? (.navigate step page) =
    if step < s.form.steps.length then none
    else some (.stepOutOfRange step s.form.steps.length) := by
  show error?.errorOf (s.navigate step page) = _
  split
  · next hlt =>
    simp only [navigate, Form.stepAt, List.getElem?_eq_getElem hlt]
    rfl
  · next hge =>
    simp only [navigate, Form.stepAt, List.getElem?_eq_none (Nat.le_of_not_lt hge)]
    rfl

/-- Where every target of the current step is a step of the form, adding a record asks only for a
reference field with a target. -/
theorem error?_addRecord (htargets : ∀ f ∈ s.currentStep.fields, ∀ target,
      f.referenceTarget? = some target → ∃ i, s.form.stepIndex? target = some i)
    (id fresh : String) : s.error? (.addRecord id fresh) =
      match s.currentStep.field? id with
      | none => some (.unknownField s.currentStep.id id)
      | some f => if f.referenceTarget? = none then some (.notAReference id) else none := by
  show error?.errorOf (s.addRecord id fresh) = _
  cases hf : s.currentStep.field? id with
  | none =>
    simp only [addRecord, field_eq, hf]
    rfl
  | some f =>
    cases htarget : f.referenceTarget? with
    | none =>
      simp only [addRecord, field_eq, hf, Attempt.ok_bind, htarget]
      rfl
    | some target =>
      obtain ⟨i, hi⟩ := htargets f (Step.field?_eq_some hf).1 target htarget
      simp only [addRecord, field_eq, hf, Attempt.ok_bind, htarget, hi]
      rfl

/-- Where every record is filled in a step of the form, opening one asks only for the record. -/
theorem error?_openRecord (hknown : ∀ r ∈ s.data.records, ∃ i, s.form.stepIndex? r.step = some i)
    (id : String) : s.error? (.openRecord id) =
      if s.data.record? id = none then some (.unknownChild id) else none := by
  show error?.errorOf (s.openRecord id) = _
  cases hr : s.data.record? id with
  | none =>
    simp only [openRecord, hr]
    rfl
  | some r =>
    obtain ⟨i, hi⟩ := hknown r (FormData.mem_of_record? hr)
    simp only [openRecord, hr, Attempt.ok_bind, hi]
    rfl

/-- Where no record is without its owner, deleting one asks only for the record. -/
theorem error?_deleteRecord {form : Form} (hd : s.data.Linked form) (id : String) :
    s.error? (.deleteRecord id) =
      if s.data.record? id = none then some (.unknownChild id) else none := by
  have hnone : s.data.removed id = [] ↔ s.data.record? id = none :=
    (FormData.removed_eq_nil_iff hd).trans FormData.record?_eq_none_iff.symm
  show error?.errorOf (s.deleteRecord id) = _
  cases hremoved : s.data.removed id with
  | nil =>
    rw [if_pos (hnone.1 hremoved)]
    simp only [deleteRecord, hremoved]
    rfl
  | cons first more =>
    rw [if_neg fun h => by simp [hnone.2 h] at hremoved]
    simp only [deleteRecord, hremoved]
    split <;> rfl

/-- In a session on a compiled form every target of the current step is a step of the form. -/
theorem exists_stepIndex?_of_target {p : Package} (h : Reached (Form.compile p) s) {f : Field}
    (hf : f ∈ s.currentStep.fields) {target : String} (htarget : f.referenceTarget? = some target) :
    ∃ i, s.form.stepIndex? target = some i := by
  rw [Field.referenceTarget?] at htarget
  split at htarget
  · obtain ⟨t, ht, hid⟩ := Package.exists_step_of_target h.currentStep_mem hf htarget
    rw [h.form_eq]
    exact Form.exists_stepIndex? ⟨t, Package.mem_steps_compile.2 ht, hid⟩
  · cases htarget

theorem orSelf_of_errorOf {α : Type} {attempt : Except FormError (α × Session)} {e : FormError}
    (h : error?.errorOf attempt = some e) : s.orSelf attempt = s := by
  cases attempt with
  | ok => cases h
  | error => rfl

theorem perform_of_error? {a : SessionAction} {e : FormError} (h : s.error? a = some e) :
    s.perform a = s := by
  cases a with
  | edit | addRecord | deleteRecord => exact orSelf_of_errorOf h
  | navigate step page =>
    refine orSelf_of_errorOf (e := e) ?_
    rw [← h, error?]
    cases s.navigate step page <;> rfl
  | openRecord id =>
    refine orSelf_of_errorOf (e := e) ?_
    rw [← h, error?]
    cases s.openRecord id <;> rfl
  | setLanguage | save | next | previous | finish | cancel => cases h

/-- In a session on a compiled form no action misses a step. -/
theorem error?_ne_unknownStep {p : Package} (h : Reached (Form.compile p) s) (a : SessionAction)
    (id : String) : s.error? a ≠ some (.unknownStep id) := by
  intro heq
  cases a with
  | edit =>
    rw [error?_edit] at heq
    split at heq <;> cases heq
  | navigate =>
    rw [error?_navigate] at heq
    split at heq <;> cases heq
  | addRecord =>
    rw [error?_addRecord fun f hf target => exists_stepIndex?_of_target h hf] at heq
    split at heq
    · cases heq
    · split at heq <;> cases heq
  | openRecord =>
    rw [error?_openRecord h.inPlace.known] at heq
    split at heq <;> cases heq
  | deleteRecord =>
    rw [error?_deleteRecord h.linked] at heq
    split at heq <;> cases heq
  | setLanguage | save | next | previous | finish | cancel => cases heq

/-- In a session on a compiled form an action fails exactly when what it names is not there: editing
without the field, navigating without the step, adding without a reference field that has a target,
opening and deleting without the record. Never is it the step of a target or a record that is
missing. An attempt that fails leaves the whole session as it was. -/
theorem failed_attempt_changes_nothing {p : Package} (h : Reached (Form.compile p) s) :
    (∀ id x, (Attempt.ofAction (.edit id x)).FailsOn s ↔ ∀ f ∈ s.currentStep.fields, f.id ≠ id) ∧
    (∀ step page, (Attempt.ofAction (.navigate step page)).FailsOn s ↔
      s.form.steps.length ≤ step) ∧
    (∀ id fresh, (Attempt.ofAction (.addRecord id fresh)).FailsOn s ↔
      ∀ f, s.currentStep.field? id = some f → f.referenceTarget? = none) ∧
    (∀ id, (Attempt.ofAction (.openRecord id)).FailsOn s ↔ ∀ r ∈ s.data.records, r.id ≠ id) ∧
    (∀ id, (Attempt.ofAction (.deleteRecord id)).FailsOn s ↔ ∀ r ∈ s.data.records, r.id ≠ id) ∧
    ∀ a e after, (Attempt.ofAction a).on s = (.error e, after) →
      after = s ∧ ∀ id, e ≠ .unknownStep id := by
  have hrecord (id : String) : (if s.data.record? id = none then some (.unknownChild id)
      else none : Option FormError) ≠ none ↔ ∀ r ∈ s.data.records, r.id ≠ id := by
    rw [← FormData.record?_eq_none_iff]
    simp
  refine ⟨fun id x => ?_, fun step page => ?_, fun id fresh => ?_, fun id => ?_, fun id => ?_,
    fun a e after hon => ?_⟩
  · rw [Attempt.failsOn_ofAction_iff, error?_edit]
    have hfield : ¬ s.currentStep.HasField id ↔ ∀ f ∈ s.currentStep.fields, f.id ≠ id := by
      simp [Step.HasField]
    rw [← hfield]
    split <;> simp_all
  · rw [Attempt.failsOn_ofAction_iff, error?_navigate]
    simp
  · rw [Attempt.failsOn_ofAction_iff,
      error?_addRecord fun f hf target => exists_stepIndex?_of_target h hf]
    cases s.currentStep.field? id <;> simp
  · rw [Attempt.failsOn_ofAction_iff, error?_openRecord h.inPlace.known]
    exact hrecord id
  · rw [Attempt.failsOn_ofAction_iff, error?_deleteRecord h.linked]
    exact hrecord id
  · rw [Attempt.on_ofAction, Prod.mk.injEq] at hon
    obtain ⟨hend, rfl⟩ := hon
    cases herror : s.error? a with
    | none => simp [herror, Attempt.ending] at hend
    | some e' =>
      obtain rfl : e' = e := by simpa [herror, Attempt.ending] using hend
      refine ⟨perform_of_error? herror, ?_⟩
      rintro id rfl
      exact error?_ne_unknownStep h a id herror

/-! ## A run with a draft -/

/-- A run that leaves a name in the draft of a record. -/
def draftRun : List SessionAction := [.addRecord "author" "a", .edit "name" (.text "Ada")]

theorem place_draftRun : (start (Form.compile nestedPackage)).toOption.any fun s =>
    (s.run draftRun).draft.contains "name" ∧ (s.run draftRun).data.records.map (·.id) = ["a"] ∧
      (s.run draftRun).currentStep.fields.map (·.id) = ["name", "employer"] := by cbv

/-- With a name in the draft, editing a field of another step and deleting a record that is not
there fail; the draft stays. -/
theorem failed_attempt_changes_nothing_draft :
    ∃ s, Reached (Form.compile nestedPackage) s ∧ s.draft.contains "name" ∧
      (Attempt.ofAction (.edit "title" (.text "Notes"))).FailsOn s ∧
      ¬ (Attempt.ofAction (.edit "name" (.text "Ada"))).FailsOn s ∧
      (Attempt.ofAction (.deleteRecord "b")).FailsOn s ∧
      ¬ (Attempt.ofAction (.deleteRecord "a")).FailsOn s ∧
      ∀ e after, (Attempt.ofAction (.deleteRecord "b")).on s = (.error e, after) →
        after.draft.contains "name" := by
  obtain ⟨s₀, hstart, -⟩ := exists_start steps_nestedPackage
  have h : Reached (Form.compile nestedPackage) (s₀.run draftRun) :=
    reached_of_start hstart (by decide)
  obtain ⟨hdraft, hrecords, hfields⟩ := of_start hstart place_draftRun
  obtain ⟨hedit, -, -, -, hdelete, hfailed⟩ := failed_attempt_changes_nothing h
  have hfield (id : String) : (∀ f ∈ (s₀.run draftRun).currentStep.fields, f.id ≠ id) ↔
      id ∉ ["name", "employer"] := by
    rw [← hfields]
    simp
  have hrecord (id : String) : (∀ r ∈ (s₀.run draftRun).data.records, r.id ≠ id) ↔
      id ∉ ["a"] := by
    rw [← hrecords]
    simp
  simp only [hfield] at hedit
  simp only [hrecord] at hdelete
  refine ⟨_, h, hdraft, (hedit _ _).2 (by decide), mt (hedit _ _).1 (by decide),
    (hdelete _).2 (by decide), mt (hdelete _).1 (by decide), fun e after hon => ?_⟩
  rw [(hfailed _ e after hon).1]
  exact hdraft

end Session
end Questionnaire
