import Mathlib
import Questionnaire.Proofs.Session.Attempts
import Questionnaire.Proofs.Session.Edits
import Questionnaire.Proofs.Session.Saving

/-
  Recorded failures say what judging now would say.

  A field is judged in the active scope when it is edited and when a page that shows it is saved or
  finished (`Judges`). An action records the outcomes of what it judges (`recorded?_of_judges`) and
  changes no other failure (`recorded?_of_not_judges`), and what is held for a field changes only
  when the field is edited, and so judged. Hence a failure is recorded for a field of a scope exactly
  when the field was judged in that scope since the last cancelling and the answer held for it is
  rejected (`Exact`).

  Choosing another language and deleting a record are left out: the first changes what is rejected,
  the second drops a draft that was judged.
-/

namespace Questionnaire

/-! ## Noting outcomes -/

namespace Failures

/-- The failure recorded for a field of a scope. -/
def recorded? (f : Failures) (scope : Scope) (field : String) : Option Rejection :=
  (f.within scope).get? field

theorem get?_noteIn (m : SortedMap (SortedMap Rejection)) (key field : String)
    (outcome : Option Rejection) (k other : String) :
    (((noteIn m key field outcome).get? k).getD ∅).get? other =
      if k = key ∧ other = field then outcome else ((m.get? k).getD ∅).get? other := by
  cases outcome with
  | some r =>
    rw [noteIn, SortedMap.get?_insert]
    by_cases hk : k = key
    · subst hk
      simp [SortedMap.get?_insert]
    · simp [hk]
  | none =>
    unfold noteIn
    dsimp only
    split
    · next hnone =>
      split
      · next heq =>
        rw [heq.1, hnone]
        rfl
      · rfl
    · next failures hsome =>
      have hrest : (failures.erase field).get? other =
          if other = field then none else failures.get? other := SortedMap.get?_erase _ _ _
      by_cases hk : k = key
      · subst hk
        rw [hsome, Option.getD_some]
        split
        · next hempty =>
          rw [SortedMap.get?_of_isEmpty hempty] at hrest
          simpa [SortedMap.get?_erase] using hrest
        · simpa [SortedMap.get?_insert] using hrest
      · split <;> simp [hk, SortedMap.get?_erase, SortedMap.get?_insert]

theorem recorded?_note (f : Failures) (scope : Scope) (field : String) (outcome : Option Rejection)
    (other : Scope) (key : String) : (f.note scope field outcome).recorded? other key =
      if other = scope ∧ key = field then outcome else f.recorded? other key := by
  cases scope with
  | step id =>
    cases other with
    | step k =>
      simp only [Scope.step.injEq]
      exact get?_noteIn f.ofSteps id field outcome k key
    | record k => rfl
  | record id =>
    cases other with
    | step k => rfl
    | record k =>
      simp only [Scope.record.injEq]
      exact get?_noteIn f.ofRecords id field outcome k key

theorem recorded?_empty (scope : Scope) (field : String) :
    ({} : Failures).recorded? scope field = none := by
  cases scope <;> rfl

end Failures

/-! ## Steps of scopes -/

theorem Form.step?_of_mem {f : Form} (hids : (f.steps.map (·.id)).Nodup) {t : Step}
    (ht : t ∈ f.steps) : f.step? t.id = some t := by
  have hsome : (f.step? t.id).isSome := List.find?_isSome.2 ⟨t, ht, decide_eq_true rfl⟩
  obtain ⟨u, hu⟩ := Option.isSome_iff_exists.1 hsome
  obtain ⟨hmem, hid⟩ := Form.mem_of_step? hu
  rw [hu, List.inj_on_of_nodup_map hids hmem ht hid]

/-- Actions that neither change the language nor delete a record. -/
def SessionAction.KeepsJudgements : SessionAction → Prop
  | .setLanguage _ | .deleteRecord _ => False
  | _ => True

instance : DecidablePred SessionAction.KeepsJudgements
  | .setLanguage _ | .deleteRecord _ => .isFalse id
  | .edit .. | .save | .next | .previous | .navigate .. | .addRecord .. | .openRecord _ | .finish
  | .cancel => .isTrue trivial

namespace Session

variable {s : Session}

/-- The field of a scope with an id: that of the step that the scope belongs to. -/
def fieldOf? (s : Session) (scope : Scope) (id : String) : Option Field :=
  match scope with
  | .step key => (s.form.step? key).bind (·.field? id)
  | .record key =>
    (s.data.record? key).bind fun r => (s.form.step? r.step).bind (·.field? id)

/-- The fields of the active scope are those of the current step. -/
theorem fieldOf?_scope (h : s.InPlace) (hids : (s.form.steps.map (·.id)).Nodup) (id : String) :
    s.fieldOf? s.scope id = s.currentStep.field? id := by
  unfold scope
  split
  · next a rest ha =>
    obtain ⟨r, hr, hstep⟩ := step?_innermost h ha
    simp only [fieldOf?, hr, hstep, Option.bind_some]
  · rw [fieldOf?, Form.step?_of_mem hids (currentStep_mem h), Option.bind_some]

theorem fieldOf?_of_record? {t : Session} (hform : t.form = s.form)
    (hrecords : ∀ id r, s.data.record? id = some r →
      ∃ r', t.data.record? id = some r' ∧ r'.step = r.step)
    {scope : Scope} {id : String} {f : Field} (h : s.fieldOf? scope id = some f) :
    t.fieldOf? scope id = some f := by
  cases scope with
  | step key =>
    rw [fieldOf?, hform]
    exact h
  | record key =>
    obtain ⟨r, hr, hfield⟩ := Option.bind_eq_some_iff.1 h
    obtain ⟨r', hr', hstep⟩ := hrecords key r hr
    rw [fieldOf?, hr', Option.bind_some, hform, hstep]
    exact hfield

theorem fieldOf?_of_frames_eq {t : Session} (hform : t.form = s.form)
    (hframes : t.data.frames = s.data.frames) {scope : Scope} {id : String} {f : Field}
    (h : s.fieldOf? scope id = some f) : t.fieldOf? scope id = some f := by
  refine fieldOf?_of_record? hform (fun key r hr => ?_) h
  obtain ⟨r', hr', hframe⟩ := FormData.record?_of_frames_eq hframes hr
  exact ⟨r', hr', (ChildRecord.frame_eq_iff.1 hframe).2.2.2⟩

/-- As long as no record is taken away, scopes keep their fields. -/
theorem fieldOf?_perform {a : SessionAction} (hk : keepsAnswers a) {scope : Scope} {id : String}
    {f : Field} (h : s.fieldOf? scope id = some f) : (s.perform a).fieldOf? scope id = some f := by
  have hform := form_perform s a
  have hout := s.outcome_perform a
  generalize s.perform a = t at hout hform
  cases hout with
  | failed | edited | spoken => exact h
  | nextPage | nextStep | nextEnd | previousPage | previousStep | previousEnd | navigatedWithin
  | navigated | opened =>
    refine fieldOf?_of_frames_eq hform ?_ h
    exact frames_commit s
  | saved | finished =>
    refine fieldOf?_of_frames_eq hform ?_ h
    obtain ⟨failures, hsave⟩ := s.save_eq
    rw [hsave]
    exact frames_commit s
  | added =>
    refine fieldOf?_of_record? hform (fun key r hr => ?_) h
    obtain ⟨r', hr', hframe⟩ := FormData.record?_of_frames_eq (frames_commit s) hr
    exact ⟨r', FormData.record?_addRecord_of_some hr', (ChildRecord.frame_eq_iff.1 hframe).2.2.2⟩
  | deletedOther | deletedActive | cancelled => cases hk

/-! ## What is judged -/

/-- The fields of the current page. -/
def shown (s : Session) : List Field := (s.currentPage?.map (·.fields)).getD []

theorem mem_fields_of_shown {f : Field} (h : f ∈ s.shown) : f ∈ s.currentStep.fields := by
  unfold shown at h
  cases hpage : s.currentPage? with
  | none => simp [hpage] at h
  | some page =>
    rw [hpage] at h
    exact List.mem_flatMap.2 ⟨page, List.mem_of_getElem? hpage, h⟩

/-- An action judges a field of a scope: an edit of the field that does not fail, or saving or
finishing a page that shows it, while the scope is the active one. -/
def Judges (s : Session) (a : SessionAction) (scope : Scope) (field : String) : Prop :=
  scope = s.scope ∧
    match a with
    | .edit id _ => s.error? a = none ∧ field = id
    | .save | .finish => field ∈ s.shown.map (·.id)
    | _ => False

/-- A field of a scope was judged in a run, and the run was not cancelled since. -/
def JudgedSince (s : Session) (actions : List SessionAction) (scope : Scope) (field : String) :
    Prop :=
  ∃ before a after, actions = before ++ a :: after ∧ .cancel ∉ after ∧
    (s.run before).Judges a scope field

instance (s : Session) (scope : Scope) (field : String) :
    DecidablePred (s.Judges · scope field)
  | .edit _ _ => inferInstanceAs (Decidable (_ ∧ _ = _ ∧ _ = _))
  | .save | .finish => inferInstanceAs (Decidable (_ ∧ _ ∈ _))
  | .setLanguage _ | .next | .previous | .navigate _ _ | .addRecord _ _ | .openRecord _
  | .deleteRecord _ | .cancel => inferInstanceAs (Decidable (_ ∧ False))

theorem judgedSince_concat {actions : List SessionAction} {a : SessionAction} {scope : Scope}
    {field : String} : s.JudgedSince (actions ++ [a]) scope field ↔
      (s.run actions).Judges a scope field ∨ a ≠ .cancel ∧ s.JudgedSince actions scope field := by
  constructor
  · rintro ⟨before, b, after, hsplit, hcancel, hjudges⟩
    rcases StepOrder.eq_append_cons_of_snoc hsplit with ⟨rfl, rfl, -⟩ | ⟨rest, rfl, rfl⟩
    · exact .inl hjudges
    · rw [List.mem_append, List.mem_singleton, not_or] at hcancel
      exact .inr ⟨Ne.symm hcancel.2, before, b, rest, rfl, hcancel.1, hjudges⟩
  · rintro (hjudges | ⟨hne, before, b, after, rfl, hcancel, hjudges⟩)
    · exact ⟨actions, a, [], rfl, List.not_mem_nil, hjudges⟩
    · refine ⟨before, b, after ++ [a], by simp, ?_, hjudges⟩
      rw [List.mem_append, List.mem_singleton, not_or]
      exact ⟨hcancel, hne.symm⟩

/-! ## What an action records -/

theorem recorded?_foldl_note {judge : String → Option Rejection}
    {outcomes : List (String × Option Rejection)} (hjudge : ∀ o ∈ outcomes, o.2 = judge o.1)
    (scope : Scope) (field : String) :
    (outcomes.foldl (fun s o => s.note o.1 o.2) s).failures.recorded? scope field =
      if scope = s.scope ∧ field ∈ outcomes.map (·.1) then judge field
      else s.failures.recorded? scope field := by
  induction outcomes generalizing s with
  | nil => simp
  | cons o outcomes ih =>
    have hscope : (s.note o.1 o.2).scope = s.scope := rfl
    have hnote : (s.note o.1 o.2).failures.recorded? scope field =
        if scope = s.scope ∧ field = o.1 then o.2 else s.failures.recorded? scope field :=
      Failures.recorded?_note _ _ _ _ _ _
    rw [List.foldl_cons, ih fun x hx => hjudge x (List.mem_cons_of_mem o hx), hscope, hnote,
      hjudge o List.mem_cons_self]
    by_cases hs : scope = s.scope
    · by_cases hfield : field = o.1
      · simp [hs, hfield]
      · have hother : ¬ (scope = s.scope ∧ field = o.1) := fun h => hfield h.2
        rw [if_neg hother]
        exact if_congr (by simp [hfield]) rfl rfl
    · simp [hs]

/-- What is committed in the active scope is what is held there. -/
theorem get?_answers_commit (h : s.InPlace) (field : String) :
    s.commit.answers.get? field = s.held? s.scope field := by
  have hbind : s.commit.answers.get? field =
      (s.commit.committed? s.commit.scope).bind (·.get? field) := by
    rw [answers]
    cases s.commit.committed? s.commit.scope <;> rfl
  rw [hbind, committed?_bind, commit_scope, stored?_commit h]

/-- The outcome of judging what is held for a field of the current step in the active scope. -/
def outcome? (s : Session) (field : String) : Option Rejection :=
  (s.currentStep.field? field).bind fun f => f.validate (s.held? s.scope field) s.language

theorem outcome?_of_field? {field : String} {f : Field} (h : s.currentStep.field? field = some f) :
    s.outcome? field = f.validate (s.held? s.scope field) s.language := by
  rw [outcome?, h, Option.bind_some]

section Compiled

variable {p : Package} (h : Reached (Form.compile p) s)

include h

theorem Reached.fieldOf?_scope (id : String) : s.fieldOf? s.scope id = s.currentStep.field? id := by
  refine Session.fieldOf?_scope h.inPlace ?_ id
  rw [h.form_eq]
  exact Form.nodup_ids_compile p

/-- Saving records the outcomes for the fields shown, by what is held for them. -/
theorem recorded?_save (scope : Scope) (field : String) :
    s.save.2.failures.recorded? scope field =
      if scope = s.scope ∧ field ∈ s.shown.map (·.id) then s.outcome? field
      else s.failures.recorded? scope field := by
  have hpage : s.commit.currentPage? = s.currentPage? := by simp [currentPage?]
  have houtcomes : s.commit.pageOutcomes =
      s.shown.map fun f => (f.id, f.validate (s.held? s.scope f.id) s.language) := by
    simp only [← get?_answers_commit h.inPlace]
    rw [pageOutcomes, hpage, commit_language]
    rfl
  have hjudge : ∀ o ∈ s.commit.pageOutcomes, o.2 = s.outcome? o.1 := by
    rw [houtcomes]
    intro o ho
    obtain ⟨f, hf, rfl⟩ := List.mem_map.1 ho
    exact (outcome?_of_field?
      (Package.field?_of_mem_fields h.currentStep_mem (mem_fields_of_shown hf))).symm
  have hsave : s.save.2 = s.commit.pageOutcomes.foldl (fun s o => s.note o.1 o.2) s.commit := rfl
  rw [hsave, recorded?_foldl_note hjudge, commit_scope, commit_failures, houtcomes, List.map_map]
  rfl

theorem recorded?_save_of_shown {field : String} (hshown : field ∈ s.shown.map (·.id)) :
    s.save.2.failures.recorded? s.scope field = s.outcome? field :=
  (recorded?_save h s.scope field).trans (if_pos ⟨rfl, hshown⟩)

/-- Only fields of the form are judged. -/
theorem exists_fieldOf?_of_judges {a : SessionAction} {scope : Scope} {field : String}
    (hj : s.Judges a scope field) : ∃ f, s.fieldOf? scope field = some f := by
  obtain ⟨rfl, hj⟩ := hj
  rw [h.fieldOf?_scope]
  have hfield : s.currentStep.HasField field := by
    cases a with
    | edit id x =>
      by_contra hnot
      rw [← hj.2, error?_edit, if_neg hnot] at hj
      cases hj.1
    | save | finish =>
      obtain ⟨f, hf, hid⟩ := List.mem_map.1 hj
      exact ⟨f, mem_fields_of_shown hf, hid⟩
    | setLanguage | next | previous | navigate | addRecord | openRecord | deleteRecord | cancel =>
      exact hj.elim
  exact Option.ne_none_iff_exists'.1 fun hnone => Step.field?_eq_none_iff.1 hnone hfield

/-- An action records the outcome of judging what is held then for a field that it judges. -/
theorem recorded?_of_judges {a : SessionAction} {scope : Scope} {field : String} {f : Field}
    (hj : s.Judges a scope field) (hf : s.fieldOf? scope field = some f) :
    (s.perform a).failures.recorded? scope field =
      f.validate ((s.perform a).held? scope field) s.language := by
  obtain ⟨rfl, hj⟩ := hj
  rw [h.fieldOf?_scope] at hf
  cases a with
  | edit id x =>
    obtain ⟨hok, rfl⟩ := hj
    have hout := s.outcome_perform (.edit field x)
    generalize s.perform (.edit field x) = t at hout
    cases hout with
    | failed herror => simp [hok] at herror
    | @edited _ _ g hfield =>
      obtain rfl : g = f := Option.some.inj (hfield.symm.trans hf)
      refine (Failures.recorded?_note _ _ _ _ _ _).trans ?_
      rw [if_pos ⟨rfl, rfl⟩]
      show _ = g.validate (Session.held? { s with draft := s.draft.insert field x, failures := _ }
        s.scope field) s.language
      rw [held?_edited]
      simp [lastAnswer?]
  | save =>
    rw [held?_perform h.inPlace rfl]
    exact (recorded?_save_of_shown h hj).trans (outcome?_of_field? hf)
  | finish =>
    -- The page is left, but what was judged is held as before.
    rw [held?_perform h.inPlace rfl, perform_finish]
    exact (recorded?_save_of_shown h hj).trans (outcome?_of_field? hf)
  | setLanguage | next | previous | navigate | addRecord | openRecord | deleteRecord | cancel =>
    exact hj.elim

/-- An action leaves what is recorded for fields that it does not judge. -/
theorem recorded?_of_not_judges {a : SessionAction} (ha : a.KeepsJudgements) (hne : a ≠ .cancel)
    {scope : Scope} {field : String} (hj : ¬ s.Judges a scope field) :
    (s.perform a).failures.recorded? scope field = s.failures.recorded? scope field := by
  have hout := s.outcome_perform a
  generalize s.perform a = t at hout
  cases hout with
  | failed => rfl
  | @edited id x f hfield =>
    have hok : s.error? (.edit id x) = none := by
      rw [error?_edit, if_pos ⟨f, Step.field?_eq_some hfield⟩]
    refine (Failures.recorded?_note _ _ _ _ _ _).trans (if_neg fun hsame => hj ?_)
    exact ⟨hsame.1, hok, hsame.2⟩
  | saved | finished => exact (recorded?_save h scope field).trans (if_neg hj)
  | spoken | deletedOther | deletedActive => exact ha.elim
  | cancelled => exact absurd rfl hne
  | nextPage | nextStep | nextEnd | previousPage | previousStep | previousEnd | navigatedWithin
  | navigated | added | opened => exact congrArg (·.recorded? scope field) s.commit_failures

end Compiled

/-- What is not judged is held as before. -/
theorem held?_perform_of_not_judges {a : SessionAction} (h : s.InPlace) (hk : keepsAnswers a)
    {scope : Scope} {field : String} (hj : ¬ s.Judges a scope field) :
    (s.perform a).held? scope field = s.held? scope field := by
  rw [held?_perform h hk]
  cases a with
  | edit id x =>
    cases herror : s.error? (.edit id x) with
    | some e =>
      rw [entered?_of_error herror]
      rfl
    | none =>
      have hnot : ¬ (s.scope = scope ∧ id = field) := fun heq =>
        hj ⟨heq.1.symm, herror, heq.2.symm⟩
      simp [entered?, herror, lastAnswer?, hnot]
  | setLanguage | save | next | previous | navigate | addRecord | openRecord | deleteRecord
  | finish | cancel => rfl

theorem language_perform {a : SessionAction} (ha : a.KeepsJudgements) :
    (s.perform a).language = s.language := by
  have hout := s.outcome_perform a
  generalize s.perform a = t at hout
  cases hout with
  | failed | edited | cancelled => rfl
  | spoken | deletedOther | deletedActive => exact ha.elim
  | nextPage | nextStep | nextEnd | previousPage | previousStep | previousEnd | navigatedWithin
  | navigated | added | opened => exact s.commit_language
  | saved | finished =>
    obtain ⟨failures, hsave⟩ := s.save_eq
    rw [hsave]
    exact s.commit_language

/-! ## Runs -/

/-- Where a field was judged, its recorded failure is what judging it now would give; elsewhere
there is none. -/
structure Exact (s : Session) (judged : Scope → String → Prop) : Prop where
  recorded : ∀ scope field, judged scope field → ∃ f, s.fieldOf? scope field = some f ∧
    s.failures.recorded? scope field = f.validate (s.held? scope field) s.language
  silent : ∀ scope field, ¬ judged scope field → s.failures.recorded? scope field = none

theorem exact_cancel (s : Session) {judged : Scope → String → Prop}
    (hnone : ∀ scope field, ¬ judged scope field) : s.cancel.Exact judged where
  recorded scope field hj := absurd hj (hnone scope field)
  silent scope field _ := Failures.recorded?_empty scope field

theorem exact_perform {p : Package} (h : Reached (Form.compile p) s) {a : SessionAction}
    (ha : a.KeepsJudgements) {judged : Scope → String → Prop} (hs : s.Exact judged) :
    (s.perform a).Exact fun scope field =>
      s.Judges a scope field ∨ a ≠ .cancel ∧ judged scope field := by
  rcases Decidable.em (a = .cancel) with rfl | hne
  · exact s.exact_cancel fun scope field hj =>
      hj.elim (fun hnow => hnow.2) fun hbefore => hbefore.1 rfl
  have hk : keepsAnswers a := by
    cases a with
    | deleteRecord => exact ha.elim
    | cancel => exact absurd rfl hne
    | _ => rfl
  constructor
  · intro scope field hj
    rw [language_perform ha]
    by_cases hnow : s.Judges a scope field
    · obtain ⟨f, hf⟩ := exists_fieldOf?_of_judges h hnow
      exact ⟨f, fieldOf?_perform hk hf, recorded?_of_judges h hnow hf⟩
    · obtain ⟨f, hf, hrecorded⟩ := hs.recorded scope field (hj.resolve_left hnow).2
      refine ⟨f, fieldOf?_perform hk hf, ?_⟩
      rw [recorded?_of_not_judges h ha hne hnow, hrecorded,
        held?_perform_of_not_judges h.inPlace hk hnow]
  · intro scope field hj
    rw [recorded?_of_not_judges h ha hne fun hnow => hj (.inl hnow)]
    exact hs.silent scope field fun hbefore => hj (.inr ⟨hne, hbefore⟩)

theorem exact_run {p : Package} (h : Reached (Form.compile p) s) (hnone : s.failures = {})
    {actions : List SessionAction} (hfresh : s.FreshRun actions)
    (hkeeps : ∀ a ∈ actions, a.KeepsJudgements) :
    (s.run actions).Exact (s.JudgedSince actions) := by
  -- From the end, since what was judged there is judged since any earlier cancelling.
  induction actions using List.reverseRecOn with
  | nil =>
    constructor
    · rintro scope field ⟨before, a, after, hsplit, -⟩
      simp at hsplit
    · intro scope field _
      show s.failures.recorded? scope field = none
      rw [hnone, Failures.recorded?_empty]
  | append_singleton actions a ih =>
    obtain ⟨hbefore, -⟩ := freshRun_append.1 hfresh
    have hexact := ih hbefore fun b hb => hkeeps b (List.mem_append_left _ hb)
    have hstep := exact_perform (h.run hbefore) (hkeeps a (by simp)) hexact
    have hrun : s.run (actions ++ [a]) = (s.run actions).perform a := List.foldl_concat ..
    have hjudged : s.JudgedSince (actions ++ [a]) = fun scope field =>
        (s.run actions).Judges a scope field ∨ a ≠ .cancel ∧ s.JudgedSince actions scope field := by
      funext scope field
      exact propext judgedSince_concat
    rw [hrun, hjudged]
    exact hstep

/-- From the start of a compiled form with a step, after every run that neither changes the language
nor deletes a record, a field of the current step shows a failure exactly when it was judged in the
active scope since the last cancelling and the value shown is rejected with that failure. In any
scope a failure is recorded exactly when the field was judged there and what is held for it there
is rejected so, whatever is recorded for fields of the same name elsewhere. -/
theorem failure?_run {p : Package} (hsteps : (Form.compile p).steps ≠ []) :
    ∃ s₀, start (Form.compile p) = .ok s₀ ∧ ∀ actions, s₀.FreshRun actions →
      (∀ a ∈ actions, a.KeepsJudgements) → ∀ s, s₀.run actions = s →
        (∀ f ∈ s.currentStep.fields, ∀ e, s.failure? f.id = some e ↔
          s₀.JudgedSince actions s.scope f.id ∧
            f.validate (s.value? f.id) s.language = some e) ∧
        ∀ scope field e, s.failures.recorded? scope field = some e ↔
          s₀.JudgedSince actions scope field ∧ ∃ f, s.fieldOf? scope field = some f ∧
            f.validate (s.held? scope field) s.language = some e := by
  obtain ⟨s₀, hstart, -⟩ := exists_start hsteps
  refine ⟨s₀, hstart, fun actions hfresh hkeeps s hs => ?_⟩
  have h₀ : Reached (Form.compile p) s₀ := ⟨s₀, [], hstart, trivial, rfl⟩
  have hnone : s₀.failures = {} := by
    obtain ⟨first, rest, -, rfl⟩ := eq_of_start hstart
    rfl
  have hexact := exact_run h₀ hnone hfresh hkeeps
  have h := h₀.run hfresh
  rw [hs] at hexact h
  have hall (scope : Scope) (field : String) (e : Rejection) :
      s.failures.recorded? scope field = some e ↔
        s₀.JudgedSince actions scope field ∧ ∃ f, s.fieldOf? scope field = some f ∧
          f.validate (s.held? scope field) s.language = some e := by
    by_cases hj : s₀.JudgedSince actions scope field
    · obtain ⟨f, hf, hrecorded⟩ := hexact.recorded scope field hj
      simp [hj, hf, hrecorded]
    · simp [hj, hexact.silent scope field hj]
  refine ⟨fun f hf e => ?_, hall⟩
  have hfield : s.fieldOf? s.scope f.id = some f :=
    (h.fieldOf?_scope f.id).trans (Package.field?_of_mem_fields h.currentStep_mem hf)
  have hscope := hall s.scope f.id e
  rw [hfield] at hscope
  simpa [value?_eq_held?, failure?, Failures.recorded?] using hscope

/-! ## Two fields of one name -/

/-- A package whose works and authors have names; only authors must have one. -/
def namedPackage : Package where
  bundle := {
    main := { captureBase := {
      digest := "work", attributes := [("name", .text "Text"), ("author", .text "refs:person")] } }
    dependencies := [{
      captureBase := { digest := "person", attributes := [("name", .text "Text")] }
      overlays := { conformance := some (SortedMap.empty.insert "name" (some "M")) } }] }
  presentations := [{
    captureBase := "work"
    interactions := [SortedMap.empty.insert "author" { kind := some (.name "reference") }] }]

theorem steps_namedPackage : (Form.compile namedPackage).steps ≠ [] := by
  have hlength : (Form.compile namedPackage).steps.length = 2 := by cbv
  exact List.ne_nil_of_length_eq_add_one hlength

/-- A run that saves a work and finishes its author without names, and opens the author again. -/
def namelessRun : List SessionAction := [
  .save, .addRecord "author" "a", .finish, .openRecord "a"]

theorem judges_namelessRun : (start (Form.compile namedPackage)).toOption.any fun s =>
    (s.run [.save, .addRecord "author" "a"]).Judges .finish (.record "a") "name" := by cbv

theorem place_namelessRun : (start (Form.compile namedPackage)).toOption.any fun s =>
    (s.run namelessRun).scope = .record "a" ∧
      (s.run namelessRun).currentStep.fields.any fun f => f.id = "name" ∧
        f.validate ((s.run namelessRun).value? f.id) (s.run namelessRun).language =
          some .required := by cbv

/-- The author that is opened again shows that a name is required. -/
theorem failure?_run_nameless : (Form.compile namedPackage).steps ≠ [] ∧
    ∃ s₀, start (Form.compile namedPackage) = .ok s₀ ∧ s₀.FreshRun namelessRun ∧
      (∀ a ∈ namelessRun, a.KeepsJudgements) ∧
      (s₀.run namelessRun).failure? "name" = some .required := by
  obtain ⟨s₀, hstart, hrun⟩ := failure?_run steps_namedPackage
  have hfresh : s₀.FreshRun namelessRun := freshRun_of_start hstart (by decide)
  have hkeeps : ∀ a ∈ namelessRun, a.KeepsJudgements := by decide
  have hjudges := of_start hstart judges_namelessRun
  obtain ⟨hscope, hplace⟩ := of_start hstart place_namelessRun
  obtain ⟨f, hf, hplace⟩ := List.any_eq_true.1 hplace
  obtain ⟨hid, hrejected⟩ := of_decide_eq_true hplace
  obtain ⟨hshown, -⟩ := hrun namelessRun hfresh hkeeps _ rfl
  have hjudged : s₀.JudgedSince namelessRun (.record "a") "name" :=
    ⟨[.save, .addRecord "author" "a"], .finish, [.openRecord "a"], rfl, by decide, hjudges⟩
  rw [← hscope, ← hid] at hjudged
  have hfailure := (hshown f hf .required).2 (And.intro hjudged hrejected)
  rw [hid] at hfailure
  exact ⟨steps_namedPackage, s₀, hstart, hfresh, hkeeps, hfailure⟩

end Session
end Questionnaire
