import Questionnaire.Proofs.Session.Position

/-
  Answers and records fit the form.

  `FormData.Linked` is about records without their values: ids differ, steps are known, and every
  record is owned through a reference field that leads to its step, by an owner that stands before
  it. `FormData.Sound` adds that values are held under fields of their step, and `Sound` that the
  draft is, too. Filing keeps the links since it changes values only (`linked_of_frames_eq`);
  removing keeps them since the records nested in a removed one go with it. `sound_perform` is
  the step that runs repeat.
-/

namespace Questionnaire

/-! ## Fitting a form -/

/-- A step has a field with an id. -/
def Step.HasField (s : Step) (id : String) : Prop := ∃ f ∈ s.fields, f.id = id

/-- A reference field of a step, with an id, leads to another step. -/
def Step.Offers (s : Step) (field target : String) : Prop :=
  ∃ f ∈ s.fields, f.id = field ∧ f.referenceTarget? = some target

instance (s : Step) (field target : String) : Decidable (s.Offers field target) :=
  inferInstanceAs (Decidable (∃ f ∈ s.fields, f.id = field ∧ f.referenceTarget? = some target))

theorem Step.field?_eq_some {s : Step} {id : String} {f : Field} (h : s.field? id = some f) :
    f ∈ s.fields ∧ f.id = id :=
  ⟨List.mem_of_find?_eq_some h, by simpa using List.find?_some h⟩

theorem Form.step?_of_stepIndex? {f : Form} {id : String} {i : Nat}
    (h : f.stepIndex? id = some i) : f.step? id = some (f.steps.getD i {}) := by
  obtain ⟨hi, hp, hmin⟩ := List.findIdx?_eq_some_iff_getElem.1 h
  refine List.find?_eq_some_iff_getElem.2 ⟨?_, i, hi, ?_, ?_⟩
  · simpa [List.getD_eq_getElem?_getD, hi] using hp
  · simp [List.getD_eq_getElem?_getD, hi]
  · intro j hj
    simpa using hmin j hj

theorem Form.mem_of_step? {f : Form} {id : String} {t : Step} (h : f.step? id = some t) :
    t ∈ f.steps ∧ t.id = id :=
  ⟨List.mem_of_find?_eq_some h, by simpa using List.find?_some h⟩

namespace FormData

/-- Records differ in their ids and belong where they stand. -/
structure Linked (form : Form) (d : FormData) : Prop where
  distinct : (d.records.map (·.id)).Nodup
  known : ∀ r ∈ d.records, ∃ t, form.step? r.step = some t
  /-- An owner stands before what it owns, and its step has the field that owns it. -/
  owned : ∀ before r after, d.records = before ++ r :: after → ∀ p, r.owner = some p →
    ∃ o ∈ before, o.id = p ∧ ∃ t, form.step? o.step = some t ∧ t.Offers r.field r.step
  /-- A record without an owner is owned by a field of some step. -/
  free : ∀ r ∈ d.records, r.owner = none → ∃ t ∈ form.steps, t.Offers r.field r.step

/-- Records are linked, and values are held under fields of their step. -/
structure Sound (form : Form) (d : FormData) : Prop extends Linked form d where
  values : ∀ r ∈ d.records, ∀ k, r.values.contains k →
    ∃ t, form.step? r.step = some t ∧ t.HasField k
  steps : ∀ id v, d.steps.get? id = some v → ∀ k, v.contains k →
    ∃ t ∈ form.steps, t.id = id ∧ t.HasField k

variable {form : Form} {d d' : FormData}

/-! ## Filing -/

theorem map_id_frames (d : FormData) : d.frames.map (·.id) = d.records.map (·.id) := by
  rw [frames, List.map_map]
  rfl

theorem linked_of_frames_eq (h : d'.frames = d.frames) (hd : d.Linked form) : d'.Linked form := by
  refine ⟨?_, fun r' hr' => ?_, fun before' r' after' hsplit' p hp => ?_, fun r' hr' hp => ?_⟩
  · rw [← map_id_frames, h, map_id_frames]
    exact hd.distinct
  · obtain ⟨r, hr, hframe⟩ := mem_of_frames_eq h hr'
    exact (ChildRecord.frame_eq_iff.1 hframe).2.2.2 ▸ hd.known r hr
  · have hmap : d.records.map ChildRecord.frame =
        before'.map ChildRecord.frame ++ (r' :: after').map ChildRecord.frame := by
      rw [← List.map_append, ← hsplit']
      exact h.symm
    obtain ⟨before, rest, hsplit, hbefore, hrest⟩ := List.map_eq_append_iff.1 hmap
    obtain ⟨r, after, rfl, hr, _⟩ := List.map_eq_cons_iff.1 hrest
    obtain ⟨-, hfield, howner, hstep⟩ := ChildRecord.frame_eq_iff.1 hr
    obtain ⟨o, ho, hid, t, ht, hoffers⟩ := hd.owned before r after hsplit p (howner.trans hp)
    have homem : o.frame ∈ before'.map ChildRecord.frame := hbefore ▸ List.mem_map_of_mem ho
    obtain ⟨o', ho', hframe⟩ := List.mem_map.1 homem
    obtain ⟨hid', -, -, hstep'⟩ := ChildRecord.frame_eq_iff.1 hframe
    exact ⟨o', ho', hid'.trans hid, t, hstep' ▸ ht, hfield ▸ hstep ▸ hoffers⟩
  · obtain ⟨r, hr, hframe⟩ := mem_of_frames_eq h hr'
    obtain ⟨-, hfield, howner, hstep⟩ := ChildRecord.frame_eq_iff.1 hframe
    exact hfield ▸ hstep ▸ hd.free r hr (howner.trans hp)

theorem contains_union {m new : SortedMap Answer} {k : String} :
    (m.union new).contains k ↔ new.contains k ∨ m.contains k := by
  simp [SortedMap.contains, SortedMap.get?_union]

theorem not_contains_empty (k : String) : ¬ (∅ : SortedMap Answer).contains k := by
  simp [SortedMap.contains]

/-- A draft may be filed under a scope whose step has its fields. -/
def Fits (form : Form) (d : FormData) (draft : Values) : Scope → Prop
  | .step id => ∀ k, draft.contains k → ∃ t ∈ form.steps, t.id = id ∧ t.HasField k
  | .record id => ∀ r, d.record? id = some r → ∀ k, draft.contains k →
      ∃ t, form.step? r.step = some t ∧ t.HasField k

theorem sound_file (hd : d.Sound form) {draft : Values} {scope : Scope}
    (hfits : Fits form d draft scope) : (Session.file d draft scope).Sound form := by
  have hlinked := linked_of_frames_eq (Session.frames_file d draft scope) hd.toLinked
  cases scope with
  | step id =>
    refine ⟨hlinked, hd.values, fun key v hv k hk => ?_⟩
    have hv : (d.steps.insert id (((d.steps.get? id).getD ∅).union draft)).get? key = some v := hv
    rw [SortedMap.get?_insert] at hv
    split at hv
    · next hkey =>
      cases hv
      rcases contains_union.1 hk with hk | hk
      · exact hkey ▸ hfits k hk
      · cases hold : d.steps.get? id with
        | none => exact absurd hk (by rw [hold]; exact not_contains_empty k)
        | some old => exact hkey ▸ hd.steps id old hold k (by simpa [hold] using hk)
    · exact hd.steps key v hv k hk
  | record id =>
    refine ⟨hlinked, fun r' hr' k hk => ?_, hd.steps⟩
    rcases mem_replaceFirst hr' with hr' | ⟨r, hr, rfl⟩
    · exact hd.values r' hr' k hk
    · rcases contains_union.1 hk with hk | hk
      · exact hfits r hr k hk
      · exact hd.values r (mem_of_record? hr) k hk

/-! ## Adding a record -/

theorem sound_addRecord (hd : d.Sound form) {r : ChildRecord} {t : Step}
    (hfresh : ∀ x ∈ d.records, x.id ≠ r.id) (hstep : form.step? r.step = some t)
    (howned : ∀ p, r.owner = some p →
      ∃ o ∈ d.records, o.id = p ∧ ∃ t, form.step? o.step = some t ∧ t.Offers r.field r.step)
    (hfree : r.owner = none → ∃ t ∈ form.steps, t.Offers r.field r.step)
    (hvalues : r.values = ∅) : (d.addRecord r).Sound form := by
  refine ⟨⟨?_, fun x hx => ?_, fun before x after hsplit p hp => ?_, fun x hx hp => ?_⟩,
    fun x hx k hk => ?_, hd.steps⟩
  · show ((d.records ++ [r]).map (·.id)).Nodup
    rw [List.map_append, List.nodup_append]
    refine ⟨hd.distinct, List.nodup_singleton _, fun a ha b hb => ?_⟩
    obtain ⟨x, hx, rfl⟩ := List.mem_map.1 ha
    exact List.mem_singleton.1 hb ▸ hfresh x hx
  · rcases List.mem_append.1 hx with hx | hx
    · exact hd.known x hx
    · exact List.mem_singleton.1 hx ▸ ⟨t, hstep⟩
  · rcases StepOrder.eq_append_cons_of_snoc hsplit with ⟨rfl, rfl, -⟩ | ⟨rest, -, hrest⟩
    · exact howned p hp
    · exact hd.owned before x rest hrest p hp
  · rcases List.mem_append.1 hx with hx | hx
    · exact hd.free x hx hp
    · rw [List.mem_singleton] at hx
      subst hx
      exact hfree hp
  · rcases List.mem_append.1 hx with hx | hx
    · exact hd.values x hx k hk
    · rw [List.mem_singleton.1 hx, hvalues] at hk
      exact absurd hk (not_contains_empty k)

/-! ## Removing records -/

theorem sound_removeRecord (hd : d.Sound form) (id : String) : (d.removeRecord id).Sound form := by
  have hmem {r : ChildRecord} (hr : r ∈ (d.removeRecord id).records) : r ∈ d.records :=
    (mem_removeRecord.1 hr).1
  refine ⟨⟨?_, fun r hr => hd.known r (hmem hr), fun before r after hsplit p hp => ?_,
    fun r hr => hd.free r (hmem hr)⟩, fun r hr => hd.values r (hmem hr), hd.steps⟩
  · exact hd.distinct.sublist (List.filter_sublist.map _)
  · obtain ⟨before', rest, hrecords, rfl, hrest⟩ := List.filter_eq_append_iff.1 hsplit
    obtain ⟨skipped, after', rfl, hskipped, hkept, -⟩ := List.filter_eq_cons_iff.1 hrest
    have hsplit' : d.records = (before' ++ skipped) ++ r :: after' := by
      rw [hrecords, List.append_assoc]
    obtain ⟨o, ho, hid, hoffers⟩ := hd.owned _ r after' hsplit' p hp
    -- The owner is kept, since a record goes whenever its owner does.
    have hnot : o.id ∉ d.nested id := fun hnested => by
      have hr : r ∈ d.records := by rw [hsplit']; simp
      have := closed_nested d id r hr p (hid ▸ hnested) hp
      simp [this] at hkept
    have hkept' : (!(d.nested id).contains o.id) = true := by simpa using hnot
    rcases List.mem_append.1 ho with ho | ho
    · exact ⟨o, List.mem_filter.2 ⟨ho, hkept'⟩, hid, hoffers⟩
    · exact absurd hkept' (hskipped o ho)

end FormData

namespace Session

/-! ## Sessions -/

/-- The answers fit the form, and the draft holds values of fields of the current step. -/
structure Sound (s : Session) : Prop where
  data : s.data.Sound s.form
  draft : ∀ k, s.draft.contains k → s.currentStep.HasField k

theorem sound_of_isEmpty {s : Session} (hdraft : s.draft.isEmpty) (hdata : s.data.Sound s.form) :
    s.Sound := by
  refine ⟨hdata, fun k hk => ?_⟩
  rw [SortedMap.contains, SortedMap.get?_of_isEmpty hdraft] at hk
  cases hk

theorem currentStep_mem {s : Session} (h : s.InPlace) : s.currentStep ∈ s.form.steps := by
  have hlt := h.step_lt
  rw [currentStep, List.getD_eq_getElem?_getD, List.getElem?_eq_getElem hlt, Option.getD_some]
  exact List.getElem_mem hlt

/-- The step of the record being edited is the current one. -/
theorem step?_innermost {s : Session} (h : s.InPlace) {a : ActiveRecord}
    {rest : List ActiveRecord} (ha : s.active = a :: rest) :
    ∃ r, s.data.record? a.id = some r ∧ s.form.step? r.step = some s.currentStep := by
  obtain ⟨r, hr, hi⟩ := h.innermost a rest ha
  exact ⟨r, hr, Form.step?_of_stepIndex? hi⟩

/-- The draft may be filed under the active scope. -/
theorem fits_scope {s : Session} (h : s.InPlace) (hs : s.Sound) :
    FormData.Fits s.form s.data s.draft s.scope := by
  unfold scope
  split
  · next a rest ha =>
    intro r hr k hk
    obtain ⟨r', hr', hstep⟩ := step?_innermost h ha
    rw [hr] at hr'
    cases hr'
    exact ⟨_, hstep, hs.draft k hk⟩
  · exact fun k hk => ⟨_, currentStep_mem h, rfl, hs.draft k hk⟩

theorem sound_data_commit {s : Session} (h : s.InPlace) (hs : s.Sound) :
    s.commit.data.Sound s.form := by
  unfold commit
  split
  · exact hs.data
  · exact FormData.sound_file hs.data (fits_scope h hs)

/-- After a commit the answers fit the form, wherever the user goes. -/
theorem sound_of_commit {s t : Session} (h : s.InPlace) (hs : s.Sound) (hform : t.form = s.form)
    (hdraft : t.draft = s.commit.draft) (hdata : t.data = s.commit.data) : t.Sound := by
  refine sound_of_isEmpty (hdraft ▸ s.commit_draft) ?_
  rw [hdata, hform]
  exact sound_data_commit h hs

theorem sound_edited {s : Session} (hs : s.Sound) {field : String} {f : Field}
    (hfield : s.currentStep.field? field = some f) (x : Answer) (failures : Failures) :
    ({ s with draft := s.draft.insert field x, failures } : Session).Sound := by
  refine ⟨hs.data, fun k hk => ?_⟩
  have hk : ((s.draft.insert field x).get? k).isSome := hk
  rw [SortedMap.get?_insert] at hk
  split at hk
  · next hkey =>
    subst hkey
    exact ⟨f, Step.field?_eq_some hfield⟩
  · exact hs.draft k hk

/-- A record made by a field of the current step fits the form. -/
theorem sound_data_added {s : Session} (h : s.InPlace) (hs : s.Sound) {field fresh target : String}
    {f : Field} {step : Nat} (hfresh : ∀ r ∈ s.data.records, r.id ≠ fresh)
    (hfield : s.currentStep.field? field = some f) (htarget : f.referenceTarget? = some target)
    (hstep : s.form.stepIndex? target = some step) :
    (s.commit.data.addRecord
      { id := fresh, field, owner := s.active.head?.map (·.id), step := target }).Sound s.form := by
  obtain ⟨hmem, hid⟩ := Step.field?_eq_some hfield
  have hoffers : s.currentStep.Offers field target := ⟨f, hmem, hid, htarget⟩
  refine FormData.sound_addRecord (sound_data_commit h hs) (fun r hr heq => ?_)
    (Form.step?_of_stepIndex? hstep) (fun p hp => ?_) (fun _ => ⟨_, currentStep_mem h, hoffers⟩) rfl
  · obtain ⟨r', hr', hid'⟩ := exists_id_of_commit hr
    exact hfresh r' hr' (hid'.trans heq)
  · obtain ⟨a, ha, rfl⟩ := Option.map_eq_some_iff.1 hp
    obtain ⟨rest, hactive⟩ := List.head?_eq_some_iff.1 ha
    obtain ⟨o, ho, hostep⟩ := step?_innermost (inPlace_commit h) (by simpa using hactive)
    refine ⟨o, FormData.mem_of_record? ho, FormData.id_of_record? ho, s.currentStep, ?_, hoffers⟩
    simpa using hostep

theorem sound_rollBack {form : Form} {d : FormData} (hd : d.Sound form)
    (active : List ActiveRecord) : (rollBack d active).Sound form := by
  induction active with
  | nil => exact hd
  | cons a active ih =>
    rw [rollBack, List.foldr_cons]
    split
    · exact FormData.sound_removeRecord ih a.id
    · exact ih

theorem sound_perform {s : Session} {a : SessionAction} (h : s.InPlace) (hs : s.Sound)
    (hfresh : s.Fresh a) : (s.perform a).Sound := by
  have hout := s.outcome_perform a
  generalize s.perform a = t at hout
  cases hout with
  | failed => exact hs
  | edited hfield => exact sound_edited hs hfield _ _
  | spoken => exact ⟨hs.data, hs.draft⟩
  | nextPage | nextStep | nextEnd | previousPage | previousStep | previousEnd | navigatedWithin
  | navigated | opened =>
    refine sound_of_commit h hs ?_ ?_ ?_
    · exact commit_form s
    · rfl
    · rfl
  | saved | finished =>
    obtain ⟨failures, hsave⟩ := s.save_eq
    rw [hsave]
    refine sound_of_commit h hs ?_ ?_ ?_
    · exact commit_form s
    · rfl
    · rfl
  | added hfield htarget hstep =>
    refine sound_of_isEmpty ?_ ?_
    · exact s.commit_draft
    · show FormData.Sound s.commit.form _
      rw [commit_form]
      exact sound_data_added h hs hfresh hfield htarget hstep
  | deletedOther => exact ⟨FormData.sound_removeRecord hs.data _, hs.draft⟩
  | deletedActive => exact sound_of_isEmpty rfl (FormData.sound_removeRecord hs.data _)
  | cancelled => exact sound_of_isEmpty rfl (sound_rollBack hs.data _)

theorem sound_start {f : Form} {s : Session} (h : start f = .ok s) : s.Sound := by
  obtain ⟨first, rest, -, rfl⟩ := eq_of_start h
  refine sound_of_isEmpty rfl ⟨⟨List.nodup_nil, ?_, ?_, ?_⟩, ?_, ?_⟩
  · exact fun r hr => absurd hr List.not_mem_nil
  · intro before r after hsplit
    simp at hsplit
  · exact fun r hr => absurd hr List.not_mem_nil
  · exact fun r hr => absurd hr List.not_mem_nil
  · exact fun id v hv => by cases hv

theorem sound_of_start {f : Form} {s : Session} (h : start f = .ok s)
    {actions : List SessionAction} (hfresh : s.FreshRun actions) :
    (s.run actions).InPlace ∧ (s.run actions).Sound :=
  run_induction (motive := fun s => s.InPlace ∧ s.Sound)
    (fun _ _ h hf => ⟨inPlace_perform h.1 hf, sound_perform h.1 h.2 hf⟩)
    ⟨inPlace_start h, sound_start h⟩ hfresh

section Reached

variable {f : Form} {s : Session} (h : Reached f s)

include h

theorem Reached.inPlace_sound : s.InPlace ∧ s.Sound := by
  obtain ⟨s₀, actions, hstart, hfresh, rfl⟩ := h
  exact sound_of_start hstart hfresh

theorem Reached.inPlace : s.InPlace := h.inPlace_sound.1

theorem Reached.sound : s.Sound := h.inPlace_sound.2

theorem Reached.linked : s.data.Linked s.form := h.sound.data.toLinked

theorem Reached.form_eq : s.form = f := by
  obtain ⟨s₀, actions, hstart, -, rfl⟩ := h
  obtain ⟨first, rest, -, rfl⟩ := eq_of_start hstart
  exact form_run _ actions

end Reached

/-- From the start of any form with a step, after every run, records differ in their ids, every
record stands after its owner, to which a reference field of the owner's step ties it, and every
value, committed or in the draft, is held under a field of its step. -/
theorem sound_run {f : Form} (hsteps : f.steps ≠ []) :
    ∃ s₀, start f = .ok s₀ ∧ ∀ actions, s₀.FreshRun actions →
      (s₀.run actions).form = f ∧ (s₀.run actions).Sound := by
  obtain ⟨s₀, hstart, hform⟩ := exists_start hsteps
  exact ⟨s₀, hstart, fun actions hfresh =>
    ⟨(form_run s₀ actions).trans hform, (sound_of_start hstart hfresh).2⟩⟩

/-- A record made within another is owned by it. -/
theorem sound_run_nested : nestedForm.steps ≠ [] ∧ ∃ s₀, start nestedForm = .ok s₀ ∧
    s₀.FreshRun nestedRun ∧ (s₀.run nestedRun).Sound ∧
      (s₀.run nestedRun).data.records.map (fun r => (r.id, r.owner, r.values.isEmpty)) =
        [("a", none, false), ("b", some "a", true)] := by
  have hsteps : nestedForm.steps ≠ [] := List.cons_ne_nil _ _
  obtain ⟨s₀, hstart, hrun⟩ := sound_run hsteps
  have hfresh : s₀.FreshRun nestedRun := freshRun_of_start hstart (by decide)
  refine ⟨hsteps, s₀, hstart, hfresh, (hrun nestedRun hfresh).2, ?_⟩
  cases hstart
  decide

end Session
end Questionnaire
