import Mathlib
import Questionnaire.Proofs.Session.Edits
import Questionnaire.Proofs.Session.Provenance

/-
  Where finishing a new record leads.

  Finishing a record does not know where its making began. The step to return to is looked up again:
  from within a record it is that record's own step, from outside all records the first step that
  references the one that is left. The page is the one last shown there; of the record's own step
  the page last shown is the first, since making the record went there.

  So a user who adds a record and finishes it at once has the same records being edited as before,
  all answers committed and the new record (`addRecord_finish_returns`), but stands where the new
  record was begun only if that was in a record or at the first step that references the record's
  step (`return_elsewhere`).
-/

namespace Questionnaire.Session

variable {s : Session}

theorem commit_of_isEmpty (h : s.draft.isEmpty) : s.commit = s := if_pos h

/-! ## Going in -/

/-- The session with a new record, at the first page of the step it is filled in. -/
def begin (s : Session) (r : ChildRecord) (step : Nat) : Session :=
  (({ s.commit with data := s.commit.data.addRecord r } : Session).push
    ⟨r.id, r.field, true⟩).enter step 0

/-- An adding that does not fail finds a reference field and the step that its target is. -/
theorem exists_perform_addRecord {field fresh : String}
    (hok : s.error? (.addRecord field fresh) = none) :
    ∃ f target step, s.currentStep.field? field = some f ∧ f.referenceTarget? = some target ∧
      s.form.stepIndex? target = some step ∧ s.perform (.addRecord field fresh) =
        s.begin
          { id := fresh, field, owner := s.active.head?.map (·.id), step := target } step := by
  have hout := s.outcome_perform (.addRecord field fresh)
  generalize s.perform (.addRecord field fresh) = t at hout
  cases hout with
  | failed herror => simp [hok] at herror
  | added hfield htarget hstep => exact ⟨_, _, _, hfield, htarget, hstep, rfl⟩

/-! ## Leaving again -/

/-- Finishing without a draft commits nothing. -/
theorem perform_finish_of_isEmpty (h : s.draft.isEmpty) :
    ∃ failures, s.perform .finish = ({ s with failures } : Session).leaveScope.goBack := by
  obtain ⟨failures, hsave⟩ := s.save_eq
  rw [commit_of_isEmpty h] at hsave
  exact ⟨failures, by rw [perform_finish, hsave]⟩

/-- A new record is left again, and the step to return to is not looked up yet. -/
structure JustLeft (r : ChildRecord) (step : Nat) (s t : Session) : Prop where
  form : t.form = s.form
  active : t.active = s.active
  draft : t.draft.isEmpty
  data : t.data = s.commit.data.addRecord r
  pages : t.pages = s.pages.set step 0
  step : t.step = step

theorem justLeft_begin (s : Session) (r : ChildRecord) (step : Nat) (failures : Failures) :
    JustLeft r step s ({ s.begin r step with failures } : Session).leaveScope where
  form := s.commit_form
  active := s.commit_active
  draft := s.commit_draft
  data := rfl
  pages := congrArg (·.set step 0) s.commit_pages
  step := rfl

/-! ## Where to return to -/

theorem exists_referencingIndex? {f : Form} {t : Step} (ht : t ∈ f.steps) {id : String}
    (href : id ∈ t.targets) : ∃ i, f.referencingIndex? id = some i := by
  refine Option.ne_none_iff_exists'.1 fun hnone => ?_
  have hnot := List.findIdx?_eq_none_iff.1 hnone t ht
  simp [Step.referencesStep, href] at hnot

namespace JustLeft

variable {t : Session} {r : ChildRecord} {step : Nat} (hleft : JustLeft r step s t)

include hleft

/-- Inside a record the user returns to the step of that record, the one from before. -/
theorem returnStep_inside (h : s.InPlace) (hne : s.active ≠ []) : t.returnStep = s.step := by
  obtain ⟨a, rest, ha⟩ := List.exists_cons_of_ne_nil hne
  obtain ⟨x, hx, hxstep⟩ := h.innermost a rest ha
  obtain ⟨x', hx', hframe⟩ := FormData.record?_of_frames_eq (frames_commit s) hx
  refine returnStep_of_active (hleft.active.trans ha) (r := x') ?_ ?_
  · rw [hleft.data]
    exact FormData.record?_addRecord_of_some hx'
  · rw [hleft.form, (ChildRecord.frame_eq_iff.1 hframe).2.2.2, hxstep]

theorem id_currentStep (hstep : s.form.stepIndex? r.step = some step) :
    t.currentStep.id = r.step := by
  rw [currentStep, hleft.form, hleft.step]
  exact (Form.mem_of_step? (Form.step?_of_stepIndex? hstep)).2

/-- Outside all records the user returns to the first step that references the one that is left. -/
theorem returnStep_outside (h : s.InPlace) (hstep : s.form.stepIndex? r.step = some step)
    (href : r.step ∈ s.currentStep.targets) (hnil : s.active = []) :
    s.form.referencingIndex? r.step = some t.returnStep := by
  obtain ⟨i, hi⟩ := exists_referencingIndex? (currentStep_mem h) href
  rw [returnStep_of_nil (hleft.active.trans hnil), hleft.form, hleft.id_currentStep hstep, hi,
    Option.getD_some]

/-- Of a step other than that of the new record the page last shown is the one from before. -/
theorem page_goBack (h : s.InPlace) (hstep : s.form.stepIndex? r.step = some step)
    (hother : t.returnStep ≠ step) : t.goBack.page = s.pageOf t.returnStep := by
  have hlt : t.returnStep < t.pages.length := by
    rw [hleft.pages, List.length_set, h.length_pages, ← hleft.form]
    exact returnStep_lt t (hleft.form ▸ Nat.zero_lt_of_lt h.step_lt)
  have hshown : t.goBack.page = t.pageOf t.returnStep :=
    (pageOf_set t.returnStep _ t.returnStep hlt).trans (if_pos rfl)
  rw [hshown]
  show t.pages.getD t.returnStep 0 = _
  rw [hleft.pages]
  refine (pageOf_set (s := s) step 0 t.returnStep ?_).trans (if_neg hother)
  rw [h.length_pages]
  exact stepIndex?_lt hstep

end JustLeft

/-! ## Coming back -/

/-- A session is back from making a record in another one: what was entered before is committed, the
record is there, and the same records are being edited. Inside a record the step is the same,
outside all records it is the first that references the step of the new record. The page is the same
where the step is, unless the new record was filled in there. -/
structure BackFrom (r : ChildRecord) (s t : Session) : Prop where
  active : t.active = s.active
  draft : t.draft.isEmpty
  data : t.data = s.commit.data.addRecord r
  kept : t.data.record? r.id = some r
  committed : ∀ scope field, stored? t.data field scope = s.held? scope field
  inside : s.active ≠ [] → t.step = s.step
  outside : s.active = [] → s.form.referencingIndex? r.step = some t.step
  page : t.step = s.step → r.step ≠ s.currentStep.id → t.page = s.page

/-- Leaving a new record at once leads back from it. -/
theorem JustLeft.backFrom {t : Session} {r : ChildRecord} {step : Nat}
    (hleft : JustLeft r step s t) (h : s.InPlace) (hnew : ∀ x ∈ s.data.records, x.id ≠ r.id)
    (hvalues : r.values = ∅) (hstep : s.form.stepIndex? r.step = some step)
    (href : r.step ∈ s.currentStep.targets) : BackFrom r s t.goBack where
  active := hleft.active
  draft := hleft.draft
  data := hleft.data
  kept := by
    show t.data.record? r.id = some r
    rw [hleft.data]
    exact FormData.record?_addRecord_self (ne_id_of_commit hnew)
  committed scope field := by
    show stored? t.data field scope = _
    rw [hleft.data, stored?_addRecord _ hvalues, stored?_commit h]
  inside := hleft.returnStep_inside h
  outside := hleft.returnStep_outside h hstep href
  page hsame hne := by
    have hsame : t.returnStep = s.step := hsame
    have hother : t.returnStep ≠ step := fun heq => hne <| by
      rw [← hleft.id_currentStep hstep, currentStep, currentStep, hleft.form, hleft.step, ← heq,
        hsame]
    rw [hleft.page_goBack h hstep hother, hsame]
    rfl

/-- In a session that a run comes to, adding a record for a field, if it does not fail, and
finishing it at once leads back from the new record of that field. -/
theorem addRecord_finish_returns {f : Form} (h : Reached f s) {field fresh : String}
    (hfresh : s.Fresh (.addRecord field fresh)) (hok : s.error? (.addRecord field fresh) = none) :
    ∃ target, (∃ g, s.currentStep.field? field = some g ∧ g.referenceTarget? = some target) ∧
      BackFrom { id := fresh, field, owner := s.active.head?.map (·.id), step := target } s
        (s.run [.addRecord field fresh, .finish]) := by
  obtain ⟨g, target, step, hfield, htarget, hstep, hperform⟩ := exists_perform_addRecord hok
  let r : ChildRecord := { id := fresh, field, owner := s.active.head?.map (·.id), step := target }
  have hdraft : (s.begin r step).draft.isEmpty := commit_draft s
  obtain ⟨failures, hfinish⟩ := perform_finish_of_isEmpty hdraft
  have hrun : s.run [.addRecord field fresh, .finish] =
      ({ s.begin r step with failures } : Session).leaveScope.goBack := by
    show (s.perform (.addRecord field fresh)).perform .finish = _
    rw [hperform, hfinish]
  have href : target ∈ s.currentStep.targets :=
    StepOrder.mem_targets.2 ⟨g, (Step.field?_eq_some hfield).1, htarget⟩
  rw [hrun]
  exact ⟨target, ⟨g, hfield, htarget⟩,
    (justLeft_begin s r step failures).backFrom h.inPlace hfresh rfl hstep href⟩

/-! ## To an author, to a work and to a friend -/

/-- A run into an author with a name. -/
def namedAuthorRun : List SessionAction := [
  .edit "title" (.text "Notes"), .addRecord "author" "a", .edit "name" (.text "Ada")]

theorem place_namedAuthorRun : (start (Form.compile nestedPackage)).toOption.any fun s =>
    (s.run namedAuthorRun).error? (.addRecord "employer" "b") = none ∧
      (s.run namedAuthorRun).scope = .record "a" ∧
      (s.run namedAuthorRun).held? (.record "a") "name" = some (.text "Ada") := by cbv

/-- An author that gets an employer is still being edited then, with its name committed. -/
theorem addRecord_finish_returns_author : ∃ s, Reached (Form.compile nestedPackage) s ∧
    s.Fresh (.addRecord "employer" "b") ∧ s.error? (.addRecord "employer" "b") = none ∧
    s.scope = .record "a" ∧ ∃ t, s.run [.addRecord "employer" "b", .finish] = t ∧
      t.active = s.active ∧ t.step = s.step ∧ (∃ r, t.data.record? "b" = some r) ∧
      stored? t.data "name" (.record "a") = some (.text "Ada") := by
  obtain ⟨s₀, hstart, -⟩ := exists_start steps_nestedPackage
  have hall : s₀.FreshRun (namedAuthorRun ++ [.addRecord "employer" "b"]) :=
    freshRun_of_start hstart (by decide)
  obtain ⟨hbefore, hfresh, -⟩ := freshRun_append.1 hall
  have h : Reached (Form.compile nestedPackage) (s₀.run namedAuthorRun) :=
    ⟨s₀, namedAuthorRun, hstart, hbefore, rfl⟩
  obtain ⟨hok, hscope, hheld⟩ := of_start hstart place_namedAuthorRun
  obtain ⟨target, -, hback⟩ := addRecord_finish_returns h hfresh hok
  have hactive : (s₀.run namedAuthorRun).active ≠ [] := fun hnil => by
    cases (scope_of_nil hnil).symm.trans hscope
  exact ⟨_, h, hfresh, hok, hscope, _, rfl, hback.active, hback.inside hactive, ⟨_, hback.kept⟩,
    (hback.committed _ _).trans hheld⟩

/-- A package whose works have authors, who have friends on a page of their own. -/
def friendsPackage : Package where
  bundle := {
    main := { captureBase := { digest := "work", attributes := [("author", .text "refs:person")] } }
    dependencies := [{ captureBase := {
      digest := "person"
      attributes := [("name", .text "Text"), ("friend", .text "refs:person")] } }] }
  presentations := [
    { captureBase := "work"
      interactions := [SortedMap.empty.insert "author" { kind := some (.name "reference") }] },
    { captureBase := "person"
      pages := [{ key := "person", order := [.single "name"] },
        { key := "friends", order := [.single "friend"] }]
      pageOrder := ["person", "friends"]
      interactions := [SortedMap.empty.insert "friend" { kind := some (.name "reference") }] }]

theorem steps_friendsPackage : (Form.compile friendsPackage).steps ≠ [] := by
  have hlength : (Form.compile friendsPackage).steps.length = 2 := by cbv
  exact List.ne_nil_of_length_eq_add_one hlength

/-- A run to the friends of an author. -/
def friendsRun : List SessionAction := [.addRecord "author" "a", .next]

theorem return_letter : (start (Form.compile letterPackage)).toOption.any fun s =>
    (s.run [.navigate 1 0]).error? (.addRecord "author" "a") = none ∧
      (s.run [.navigate 1 0]).step = 1 ∧
      ((s.run [.navigate 1 0]).run [.addRecord "author" "a", .finish]).step = 0 := by cbv

theorem return_friends : (start (Form.compile friendsPackage)).toOption.any fun s =>
    (s.run friendsRun).error? (.addRecord "friend" "b") = none ∧
      (s.run friendsRun).page = 1 ∧
      ((s.run friendsRun).run [.addRecord "friend" "b", .finish]).page = 0 := by cbv

/-- From a new author of a letter the user returns to the work, and from a new friend of an author
to the first page of the author. -/
theorem return_elsewhere :
    (∃ s, Reached (Form.compile letterPackage) s ∧
      s.error? (.addRecord "author" "a") = none ∧
      (s.run [.addRecord "author" "a", .finish]).step ≠ s.step) ∧
    ∃ s, Reached (Form.compile friendsPackage) s ∧
      s.error? (.addRecord "friend" "b") = none ∧
      (s.run [.addRecord "friend" "b", .finish]).page ≠ s.page := by
  constructor
  · obtain ⟨s₀, hstart, -⟩ := exists_start steps_letterPackage
    have h : Reached (Form.compile letterPackage) (s₀.run [.navigate 1 0]) :=
      reached_of_start hstart (by decide)
    obtain ⟨hok, hbefore, hafter⟩ := of_start hstart return_letter
    refine ⟨_, h, hok, ?_⟩
    rw [hbefore, hafter]
    decide
  · obtain ⟨s₀, hstart, -⟩ := exists_start steps_friendsPackage
    have h : Reached (Form.compile friendsPackage) (s₀.run friendsRun) :=
      reached_of_start hstart (by decide)
    obtain ⟨hok, hbefore, hafter⟩ := of_start hstart return_friends
    refine ⟨_, h, hok, ?_⟩
    rw [hbefore, hafter]
    decide

end Questionnaire.Session
