import Questionnaire.Proofs.Session.Parents
import Questionnaire.Proofs.Submission.Document

/-
  What of a session comes into its submission.

  A parent step's answers do, and so does every record that a parent step leads to. Answers and
  records that were entered at a child step outside all records stay behind
  (`navigated_answers_left_out`). `FormData.UnderParents` says that there are none of those; a run
  keeps it as long as fields are edited and records added outside all records at parent steps only
  (`surfaces_perform`). `submission_run` puts this together.
-/

namespace Questionnaire

namespace FormData

/-- All answers outside records, and all records outside others, belong to parent steps. -/
structure UnderParents (f : Form) (d : FormData) : Prop where
  steps : ∀ id v, d.steps.get? id = some v → ∃ t ∈ f.parents, t.id = id
  free : ∀ r ∈ d.records, r.owner = none → ∃ t ∈ f.parents, t.Offers r.field r.step

variable {form : Form} {d : FormData}

/-- A parent step leads to all records when it leads to those outside others. -/
theorem anchored_of_underParents (hd : d.Linked form) (hunder : d.UnderParents form)
    {r : ChildRecord} (hr : r ∈ d.records) : d.Anchored form r := by
  obtain ⟨before, after, hsplit⟩ := List.append_of_mem hr
  -- An owner stands before what it owns.
  induction hn : before.length using Nat.strong_induction_on generalizing r before after with
  | _ n ih =>
    obtain ⟨u, hu⟩ := hd.known r hr
    cases howner : r.owner with
    | none =>
      obtain ⟨t, ht, hoffers⟩ := hunder.free r hr howner
      exact .free hr hu howner ht hoffers
    | some p =>
      obtain ⟨o, ho, rfl, t, ht, hoffers⟩ := hd.owned before r after hsplit p howner
      obtain ⟨first, more, rfl⟩ := List.append_of_mem ho
      have hsplit' : d.records = first ++ o :: (more ++ r :: after) := by
        rw [hsplit, List.append_assoc, List.cons_append]
      have homem : o ∈ d.records := by rw [hsplit']; simp
      have hlt : first.length < n := by
        rw [← hn, List.length_append, List.length_cons]
        omega
      exact .owned (ih _ hlt homem first _ hsplit' rfl) hr hu howner ht hoffers

theorem underParents_file (hd : d.UnderParents form) {draft : Values} {scope : Scope}
    (hscope : ∀ id, scope = .step id → ∃ t ∈ form.parents, t.id = id) :
    (Session.file d draft scope).UnderParents form := by
  cases scope with
  | step id =>
    refine ⟨fun key v hv => ?_, hd.free⟩
    have hv : (d.steps.insert id (((d.steps.get? id).getD ∅).union draft)).get? key = some v := hv
    rw [SortedMap.get?_insert] at hv
    split at hv
    · next hkey => exact hkey ▸ hscope id rfl
    · exact hd.steps key v hv
  | record id =>
    refine ⟨hd.steps, fun r hr howner => ?_⟩
    obtain ⟨r', hr', hframe⟩ :=
      mem_of_frames_eq (Session.frames_file d draft (.record id)) hr
    obtain ⟨-, hfield, howner', hstep⟩ := ChildRecord.frame_eq_iff.1 hframe
    exact hfield ▸ hstep ▸ hd.free r' hr' (howner'.trans howner)

theorem underParents_addRecord (hd : d.UnderParents form) {r : ChildRecord}
    (hfree : r.owner = none → ∃ t ∈ form.parents, t.Offers r.field r.step) :
    (d.addRecord r).UnderParents form := by
  refine ⟨hd.steps, fun x hx howner => ?_⟩
  rcases List.mem_append.1 hx with hx | hx
  · exact hd.free x hx howner
  · rw [List.mem_singleton] at hx
    subst hx
    exact hfree howner

theorem underParents_of_subset (hd : d.UnderParents form) {d' : FormData}
    (hsteps : d'.steps = d.steps) (hrecords : ∀ r ∈ d'.records, r ∈ d.records) :
    d'.UnderParents form :=
  ⟨hsteps ▸ hd.steps, fun r hr => hd.free r (hrecords r hr)⟩

end FormData

namespace Session

/-! ## Entering at parent steps -/

/-- Fields are edited and records added at parent steps, or inside records. -/
def EntersAtParent (s : Session) : SessionAction → Prop
  | .edit _ _ | .addRecord _ _ => s.AtParent
  | _ => True

instance (s : Session) : DecidablePred s.EntersAtParent
  | .edit _ _ | .addRecord _ _ => inferInstanceAs (Decidable s.AtParent)
  | .setLanguage _ | .save | .next | .previous | .navigate _ _ | .openRecord _ | .deleteRecord _
  | .finish | .cancel => .isTrue trivial

/-- What is committed belongs to parent steps, and so will what is in the draft. -/
structure Surfaces (s : Session) : Prop where
  data : s.data.UnderParents s.form
  draft : s.draft.isEmpty ∨ s.AtParent

variable {s : Session}

theorem underParents_commit (hs : s.Surfaces) : s.commit.data.UnderParents s.form := by
  unfold commit
  split
  · exact hs.data
  · next hdraft =>
    have hat : s.AtParent := hs.draft.resolve_left hdraft
    refine FormData.underParents_file hs.data fun id hid => ?_
    unfold scope at hid
    split at hid
    · cases hid
    · next hactive =>
      cases hid
      exact ⟨_, currentStep_mem_parents (hat hactive), rfl⟩

theorem surfaces_of_commit (hs : s.Surfaces) {t : Session} (hform : t.form = s.form)
    (hdraft : t.draft = s.commit.draft) (hdata : t.data = s.commit.data) : t.Surfaces :=
  ⟨hdata ▸ hform ▸ underParents_commit hs, .inl (hdraft ▸ s.commit_draft)⟩

theorem steps_rollBack (d : FormData) (active : List ActiveRecord) :
    (rollBack d active).steps = d.steps := by
  induction active with
  | nil => rfl
  | cons a active ih =>
    rw [rollBack, List.foldr_cons]
    split
    · exact ih
    · exact ih

theorem surfaces_perform {a : SessionAction} (hs : s.Surfaces) (henters : s.EntersAtParent a) :
    (s.perform a).Surfaces := by
  have hout := s.outcome_perform a
  generalize s.perform a = t at hout
  cases hout with
  | failed => exact hs
  -- Only here does the draft get something.
  | edited => exact ⟨hs.data, .inr henters⟩
  | spoken => exact ⟨hs.data, hs.draft⟩
  | nextPage | nextStep | nextEnd | previousPage | previousStep | previousEnd | navigatedWithin
  | navigated | opened =>
    refine surfaces_of_commit hs ?_ ?_ ?_
    · exact commit_form s
    · rfl
    · rfl
  | saved | finished =>
    obtain ⟨failures, hsave⟩ := s.save_eq
    rw [hsave]
    refine surfaces_of_commit hs ?_ ?_ ?_
    · exact commit_form s
    · rfl
    · rfl
  | @added field fresh f target step hfield htarget hstep =>
    refine ⟨?_, .inl s.commit_draft⟩
    show FormData.UnderParents s.commit.form _
    rw [commit_form]
    refine FormData.underParents_addRecord (underParents_commit hs) fun howner => ?_
    have hactive : s.active = [] := List.head?_eq_none_iff.1 (Option.map_eq_none_iff.1 howner)
    obtain ⟨hmem, hid⟩ := Step.field?_eq_some hfield
    exact ⟨_, currentStep_mem_parents (henters hactive), f, hmem, hid, htarget⟩
  | deletedOther =>
    refine ⟨FormData.underParents_of_subset hs.data rfl fun r hr => ?_, hs.draft⟩
    exact (FormData.mem_removeRecord.1 hr).1
  | deletedActive =>
    refine ⟨FormData.underParents_of_subset hs.data rfl fun r hr => ?_, .inl rfl⟩
    exact (FormData.mem_removeRecord.1 hr).1
  | cancelled =>
    exact ⟨FormData.underParents_of_subset hs.data (steps_rollBack _ _) fun r hr => mem_rollBack hr,
      .inl rfl⟩

theorem surfaces_run {actions : List SessionAction} (hs : s.Surfaces)
    (henters : s.Along EntersAtParent actions) : (s.run actions).Surfaces := by
  induction actions generalizing s with
  | nil => exact hs
  | cons a actions ih => exact ih (surfaces_perform hs henters.1) henters.2

theorem surfaces_start {f : Form} (h : start f = .ok s) : s.Surfaces := by
  obtain ⟨first, rest, -, rfl⟩ := eq_of_start h
  exact ⟨⟨fun id v hv => (by cases hv), fun r hr => absurd hr List.not_mem_nil⟩, .inl rfl⟩

/-! ## The submission of a run -/

/-- The submission of what is committed, in a language. -/
def submission (s : Session) (language : String) : Submission := ⟨s.form, s.data, language⟩

/-- A parent step's questions answer with what is committed for the step. -/
theorem answers_of_stepValues? (hs : s.Sound) (hids : (s.form.steps.map (·.id)).Nodup)
    {language : String} {t : Step} (ht : t ∈ s.form.parents) {part : List Question}
    (hpart : (s.submission language).ofStep t = some part) {values : Values}
    (hvalues : s.data.stepValues? t.id = some values) : Answers part values := by
  have hof : t.fields.mapM ((s.submission language).question s.data.records.length none
      ((s.data.stepValues? t.id).getD ∅)) = some part := hpart
  rw [hvalues, Option.getD_some] at hof
  refine Submission.answers_of_mapM hof fun k hk => ?_
  obtain ⟨t', ht', hid, hfield⟩ := hs.data.steps t.id values hvalues k hk
  obtain rfl := List.inj_on_of_nodup_map hids ht' (List.mem_filter.1 ht).1 hid
  exact hfield

/-- The entry of a record answers with all its values. -/
theorem carries_of_isEntryOf (hs : s.Sound) {language : String} {r : ChildRecord} {t : Step}
    {e : RecordEntry} (hr : r ∈ s.data.records) (ht : s.form.step? r.step = some t)
    (h : (s.submission language).IsEntryOf r t e) : e.Carries r := by
  obtain ⟨hid, hstep, n, hmake⟩ := h
  refine ⟨hid, hstep, Submission.answers_of_mapM hmake fun k hk => ?_⟩
  obtain ⟨t', ht', hfield⟩ := hs.data.values r hr k hk
  rw [ht'] at ht
  cases ht
  exact hfield

/-- In the submission of a run, in every language, a parent step's questions answer with all that
is committed for the step, and the entries are those of the records that a parent step leads to,
each with all values of its record. Nothing is left out of a run that edits fields and adds records
outside all records at parent steps only. -/
theorem submission_run {p : Package} (hsteps : (Form.compile p).steps ≠ []) :
    ∃ s₀, start (Form.compile p) = .ok s₀ ∧ ∀ actions, s₀.FreshRun actions → ∀ language,
      (s₀.run actions).form = Form.compile p ∧
      ∃ questions, ((s₀.run actions).submission language).questions? = some questions ∧
        (∀ t ∈ (Form.compile p).parents,
          ∃ part, ((s₀.run actions).submission language).ofStep t = some part ∧
            part <:+: questions ∧
            ∀ values, (s₀.run actions).data.stepValues? t.id = some values →
              Answers part values) ∧
        (∀ r, (s₀.run actions).data.Anchored (Form.compile p) r →
          ∃ e, Holds questions e ∧ e.Carries r) ∧
        (∀ e, Holds questions e →
          ∃ r, (s₀.run actions).data.Anchored (Form.compile p) r ∧ e.Carries r) ∧
        (s₀.Along EntersAtParent actions →
          (∀ id values, (s₀.run actions).data.stepValues? id = some values →
            ∃ t ∈ (Form.compile p).parents, t.id = id) ∧
          ∀ r ∈ (s₀.run actions).data.records,
            (s₀.run actions).data.Anchored (Form.compile p) r) := by
  obtain ⟨s₀, hstart, hform⟩ := exists_start hsteps
  refine ⟨s₀, hstart, fun actions hfresh language => ?_⟩
  have hrun : (s₀.run actions).form = Form.compile p := (form_run s₀ actions).trans hform
  have hs : (s₀.run actions).Sound := (sound_of_start hstart hfresh).2
  have hids : ((s₀.run actions).form.steps.map (·.id)).Nodup := hrun ▸ Form.nodup_ids_compile p
  obtain ⟨questions, hquestions⟩ :=
    Submission.exists_questions? (s := (s₀.run actions).submission language) hs.data.distinct
  rw [← hrun]
  refine ⟨rfl, questions, hquestions, fun t ht => ?_, fun r hr => ?_, fun e he => ?_,
    fun henters => ?_⟩
  · obtain ⟨part, hpart, hthere⟩ := Submission.exists_part hquestions ht
    exact ⟨part, hpart, hthere, fun values => answers_of_stepValues? hs hids ht hpart⟩
  · obtain ⟨e, t, hholds, ht, hentry⟩ := Submission.holds_of_anchored hquestions hr
    exact ⟨e, hholds, carries_of_isEntryOf hs hr.mem ht hentry⟩
  · obtain ⟨r, t, hr, ht, hentry⟩ := Submission.exists_anchored_of_holds hquestions he
    exact ⟨r, hr, carries_of_isEntryOf hs hr.mem ht hentry⟩
  · have hunder := (surfaces_run (surfaces_start hstart) henters).data
    exact ⟨hunder.steps, fun r hr =>
      FormData.anchored_of_underParents hs.data.toLinked hunder hr⟩

/-! ## Two runs -/

/-- A run that finishes a record within a record. -/
def finishedRun : List SessionAction := [
  .addRecord "author" "a", .addRecord "employer" "b", .edit "name" (.text "Mill"), .finish]

theorem along_finishedRun : (start (Form.compile nestedPackage)).toOption.any fun s =>
    s.Along EntersAtParent finishedRun := by cbv

theorem record_finishedRun : (start (Form.compile nestedPackage)).toOption.any fun s =>
    ((s.run finishedRun).data.record? "b").map (fun r => (r.step, r.values.get? "name")) =
      some ("firm", some (.text "Mill")) := by cbv

/-- The inner record comes into the submission. -/
theorem submission_run_nested : (Form.compile nestedPackage).steps ≠ [] ∧
    ∃ s₀, start (Form.compile nestedPackage) = .ok s₀ ∧ s₀.FreshRun finishedRun ∧
      s₀.Along EntersAtParent finishedRun ∧
      ∃ questions, ((s₀.run finishedRun).submission "eng").questions? = some questions ∧
        ∃ e, Holds questions e ∧ e.step = "firm" ∧
          ∃ q ∈ e.questions, q.id = "name" ∧ q.answer = some (.text "Mill") := by
  obtain ⟨s₀, hstart, hrun⟩ := submission_run steps_nestedPackage
  have hfresh : s₀.FreshRun finishedRun := freshRun_of_start hstart (by decide)
  have henters := of_start hstart along_finishedRun
  obtain ⟨r, hr, hvalues⟩ := Option.map_eq_some_iff.1 (of_start hstart record_finishedRun)
  obtain ⟨hstep, hname⟩ := Prod.mk.inj hvalues
  obtain ⟨-, questions, hquestions, -, hentries, -, hall⟩ := hrun finishedRun hfresh "eng"
  obtain ⟨e, he, -, hestep, hanswers⟩ := hentries r ((hall henters).2 r (FormData.mem_of_record? hr))
  exact ⟨steps_nestedPackage, s₀, hstart, hfresh, henters, questions, hquestions, e, he,
    hestep.trans hstep, hanswers _ _ hname⟩

/-- A run that goes to a child step and enters a name there, outside all records. -/
def strayRun : List SessionAction := [.navigate 1 0, .edit "name" (.text "Ada"), .save]

theorem values_strayRun : (start (Form.compile nestedPackage)).toOption.any fun s =>
    ((s.run strayRun).data.stepValues? "person").bind (·.get? "name") = some (.text "Ada") := by
  cbv

theorem questions_strayRun : (start (Form.compile nestedPackage)).toOption.any fun s =>
    (((s.run strayRun).submission "eng").questions?.map fun questions =>
      questions.map (·.id)) = some ["title", "author"] := by
  cbv

/-- An answer given at a child step outside all records is committed, and is not in the
submission. -/
theorem navigated_answers_left_out :
    ∃ s₀, start (Form.compile nestedPackage) = .ok s₀ ∧ s₀.FreshRun strayRun ∧
      (∃ values, (s₀.run strayRun).data.stepValues? "person" = some values ∧
        values.get? "name" = some (.text "Ada")) ∧
      ∃ questions, ((s₀.run strayRun).submission "eng").questions? = some questions ∧
        ∀ q ∈ questions, q.id ≠ "name" := by
  obtain ⟨s₀, hstart, -⟩ := exists_start steps_nestedPackage
  obtain ⟨questions, hquestions, hids⟩ :=
    Option.map_eq_some_iff.1 (of_start hstart questions_strayRun)
  refine ⟨s₀, hstart, freshRun_of_start hstart (by decide),
    Option.bind_eq_some_iff.1 (of_start hstart values_strayRun), questions, hquestions,
    fun q hq hid => ?_⟩
  have hmem : q.id ∈ ["title", "author"] := hids ▸ List.mem_map_of_mem hq
  rw [hid] at hmem
  exact absurd hmem (by decide)

end Session
end Questionnaire
