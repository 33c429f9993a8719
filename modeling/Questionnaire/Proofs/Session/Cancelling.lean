import Questionnaire.Proofs.Session.Nesting

/-
  Cancelling takes back what is being made, and nothing else.

  What goes are the records whose making is not finished, with all that is nested in them
  (`FormData.rollBack_eq_without`). From the first new record on, as long as nothing is left, opened
  or deleted, all that is committed goes into records that were made since (`MadeSince`); then
  cancelling restores the answers there were when the first one was made.
-/

namespace Questionnaire

namespace FormData

theorem replaceFirst_append {α : Type} {p : α → Bool} {f : α → α} {as bs : List α}
    (h : ∀ a ∈ as, p a = false) :
    replaceFirst p f (as ++ bs) = as ++ replaceFirst p f bs := by
  induction as with
  | nil => rfl
  | cons a as ih =>
    have hrest : ∀ x ∈ as, p x = false := fun x hx => h x (List.mem_cons_of_mem a hx)
    rw [List.cons_append, replaceFirst, h a List.mem_cons_self, ih hrest]
    rfl

/-- Changing a record behind others leaves those in front as they are. -/
theorem records_modifyRecord_append {d : FormData} {id : String} {f : ChildRecord → ChildRecord}
    {old new : List ChildRecord} (hrecords : d.records = old ++ new)
    (hold : ∀ r ∈ old, r.id ≠ id) :
    (d.modifyRecord id f).records = old ++ replaceFirst (·.id = id) f new := by
  rw [modifyRecord, hrecords]
  exact replaceFirst_append fun r hr => decide_eq_false (hold r hr)

end FormData

/-- Actions that fill in and make records, without leaving, opening or deleting one. -/
def SessionAction.GoesOn : SessionAction → Prop
  | .edit .. | .setLanguage _ | .save | .next | .previous | .addRecord .. => True
  | .navigate .. | .openRecord _ | .deleteRecord _ | .finish | .cancel => False

instance : DecidablePred SessionAction.GoesOn
  | .edit .. | .setLanguage _ | .save | .next | .previous | .addRecord .. => .isTrue trivial
  | .navigate .. | .openRecord _ | .deleteRecord _ | .finish | .cancel => .isFalse id

namespace Session

/-- All that was added to some answers are the records that are being made, outermost first. -/
structure MadeSince (d : FormData) (s : Session) : Prop where
  steps : s.data.steps = d.steps
  records : ∃ new, s.data.records = d.records ++ new ∧
    new.map (·.id) = (s.active.map (·.id)).reverse
  created : ∀ a ∈ s.active, a.created = true

variable {d : FormData} {s : Session}

namespace MadeSince

theorem of_eq {t : Session} (h : MadeSince d s) (hdata : t.data = s.data)
    (hactive : t.active = s.active) : MadeSince d t := by
  refine ⟨?_, ?_, ?_⟩
  · rw [hdata]
    exact h.steps
  · rw [hdata, hactive]
    exact h.records
  · rw [hactive]
    exact h.created

/-- Within a new record, committing changes that record only. -/
theorem commit {form : Form} (hd : s.data.Linked form) (h : MadeSince d s)
    (hne : s.active ≠ []) : MadeSince d s.commit := by
  unfold Session.commit
  split
  · exact h
  · obtain ⟨a, rest, ha⟩ := List.exists_cons_of_ne_nil hne
    obtain ⟨new, hrecords, hids⟩ := h.records
    have hmem : a.id ∈ new.map (·.id) := by simp [hids, ha]
    -- Since ids differ, the record is not one of the old ones.
    have hold : ∀ r ∈ d.records, r.id ≠ a.id := by
      intro r hr
      have hdistinct := hd.distinct
      rw [hrecords, List.map_append, List.nodup_append] at hdistinct
      exact hdistinct.2.2 r.id (List.mem_map_of_mem hr) a.id hmem
    have hscope : s.scope = .record a.id := by rw [scope, ha]
    rw [hscope]
    have hfiled := FormData.records_modifyRecord_append hrecords hold
      (f := fun r => { r with values := r.values.union s.draft })
    refine ⟨h.steps, ⟨_, hfiled, ?_⟩, h.created⟩
    refine (FormData.map_replaceFirst ?_ new).trans hids
    exact fun _ => rfl

theorem addRecord (h : MadeSince d s) (r : ChildRecord) (field : String) :
    MadeSince d
      (({ s with data := s.data.addRecord r } : Session).push ⟨r.id, field, true⟩) := by
  obtain ⟨new, hrecords, hids⟩ := h.records
  refine ⟨h.steps, ⟨new ++ [r], ?_, ?_⟩, fun a ha => ?_⟩
  · show s.data.records ++ [r] = _
    rw [hrecords, List.append_assoc]
  · show (new ++ [r]).map (·.id) = (r.id :: s.active.map (·.id)).reverse
    rw [List.map_append, hids, List.reverse_cons]
    rfl
  · rcases List.mem_cons.1 ha with rfl | ha
    · rfl
    · exact h.created a ha

/-- Outside all records, the first new record is all that is added to what is committed. -/
theorem first (hactive : s.active = []) {field fresh : String}
    (herror : s.error? (.addRecord field fresh) = none) :
    MadeSince s.commit.data (s.perform (.addRecord field fresh)) ∧
      (s.perform (.addRecord field fresh)).active ≠ [] := by
  have hc : MadeSince s.commit.data s.commit := by
    refine ⟨rfl, ⟨[], by simp, by simp [hactive]⟩, fun a ha => ?_⟩
    simp [hactive] at ha
  have hout := s.outcome_perform (.addRecord field fresh)
  generalize s.perform (.addRecord field fresh) = t at hout
  cases hout with
  | failed h => simp [herror] at h
  | added => exact ⟨(hc.addRecord _ field).of_eq rfl rfl, List.cons_ne_nil _ _⟩

/-- An action that goes on keeps the old answers and stays within new records. -/
theorem perform {form : Form} (hd : s.data.Linked form) (h : MadeSince d s)
    (hne : s.active ≠ []) {a : SessionAction} (ha : a.GoesOn) :
    MadeSince d (s.perform a) ∧ (s.perform a).active ≠ [] := by
  have hc := h.commit hd hne
  have hcne : s.commit.active ≠ [] := by rwa [commit_active]
  have hout := s.outcome_perform a
  generalize s.perform a = t at hout
  cases hout with
  | failed | edited | spoken => exact ⟨h.of_eq rfl rfl, hne⟩
  | saved =>
    obtain ⟨failures, hsave⟩ := s.save_eq
    rw [hsave]
    exact ⟨hc.of_eq rfl rfl, hcne⟩
  | nextPage | nextEnd | previousPage | previousEnd => exact ⟨hc.of_eq rfl rfl, hcne⟩
  | nextStep _ hleave | previousStep _ hleave => exact absurd (active_of_mayLeave hleave) hne
  | @added field => exact ⟨(hc.addRecord _ field).of_eq rfl rfl, List.cons_ne_nil _ _⟩
  | navigatedWithin | navigated | opened | deletedOther | deletedActive | finished | cancelled =>
    exact ha.elim

theorem run {f : Form} (hs : Reached f s) (h : MadeSince d s) (hne : s.active ≠ [])
    {actions : List SessionAction} (hfresh : s.FreshRun actions)
    (hgoes : ∀ a ∈ actions, a.GoesOn) : MadeSince d (s.run actions) := by
  induction actions generalizing s with
  | nil => exact h
  | cons a actions ih =>
    obtain ⟨hperform, hperform_ne⟩ := h.perform hs.linked hne (hgoes a List.mem_cons_self)
    have hrest : ∀ b ∈ actions, b.GoesOn := fun b hb => hgoes b (List.mem_cons_of_mem a hb)
    exact ih (hs.perform hfresh.1) hperform hperform_ne hfresh.2 hrest

/-- Taking back what is being made restores the old answers. -/
theorem rollBack_eq {form : Form} (hd : s.data.Linked form) (h : MadeSince d s) :
    rollBack s.data s.active = d := by
  obtain ⟨new, hrecords, hids⟩ := h.records
  have hnew : ∀ id, id ∈ new.map (·.id) ↔ ∃ a ∈ s.active, a.id = id := by simp [hids]
  -- The new records stand behind the old ones, so no old one is nested in them.
  have hold : ∀ r ∈ d.records, ¬ s.data.Unfinished s.active r.id := by
    rintro r hr ⟨a, ha, -, hnested⟩
    obtain ⟨x, hx, hid⟩ := List.mem_map.1 ((hnew a.id).2 ⟨a, ha, rfl⟩)
    obtain ⟨before, after, rfl⟩ := List.append_of_mem hx
    have hsplit : s.data.records = (d.records ++ before) ++ x :: after := by
      rw [hrecords, List.append_assoc]
    exact FormData.not_nestedIn_of_before hd hsplit (List.mem_append_left _ hr) (hid ▸ hnested)
  have hgone : ∀ r ∈ new, s.data.Unfinished s.active r.id := by
    intro r hr
    obtain ⟨a, ha, hid⟩ := (hnew r.id).1 (List.mem_map_of_mem hr)
    exact ⟨a, ha, h.created a ha, hid ▸ .self⟩
  have hfilter : s.data.records.filter (fun r => ¬ s.data.Unfinished s.active r.id) =
      d.records := by
    rw [hrecords, List.filter_append, List.filter_eq_self.2 (by simpa using hold),
      List.filter_eq_nil_iff.2 (by simpa using hgone), List.append_nil]
  rw [FormData.rollBack_eq_without, FormData.without, hfilter, h.steps]

end MadeSince

/-- Cancelling leaves out the records that are being made and all that is nested in them, and
nothing else; it ends at the start of the form with nothing pending. So what goes on within a new
record, and within those made in it, leaves no trace when it is cancelled: the answers are those
that were committed when the first one was made. -/
theorem cancel_takes_back {f : Form} (h : Reached f s) :
    (s.cancel.data = s.data.without (s.data.Unfinished s.active) ∧ s.cancel.draft = ∅ ∧
      s.cancel.active = [] ∧ s.cancel.failures = {} ∧ s.cancel.step = 0 ∧ s.cancel.page = 0) ∧
    (s.active = [] → ∀ field fresh actions, s.error? (.addRecord field fresh) = none →
      s.FreshRun (.addRecord field fresh :: actions) → (∀ a ∈ actions, a.GoesOn) →
      (s.run (.addRecord field fresh :: actions)).cancel.data = s.commit.data) := by
  refine ⟨⟨FormData.rollBack_eq_without _ _, rfl, rfl, rfl, rfl, ?_⟩,
    fun hactive field fresh actions herror hfresh hgoes => ?_⟩
  · show (s.pages.set 0 0).getD 0 0 = 0
    cases s.pages <;> rfl
  · obtain ⟨hmade, hne⟩ := MadeSince.first hactive herror
    have hreached := h.perform hfresh.1
    exact (hmade.run hreached hne hfresh.2 hgoes).rollBack_eq (hreached.run hfresh.2).linked

/-! ## Cancelling a record within a record -/

/-- A run that leaves an author and a title that is not committed. -/
def titledRun : List SessionAction :=
  [.addRecord "author" "c", .finish, .edit "title" (.text "Notes")]

/-- What goes on within another author. -/
def employerRun : List SessionAction := [
  .edit "name" (.text "Ada"), .addRecord "employer" "b", .next, .edit "name" (.text "Mill"), .save,
  .addRecord "employer" "d"]

/-- Another author and an employer are made, with answers, and cancelled: the first author and the
title stay. -/
theorem cancel_takes_back_employer : ∃ s, Reached nestedForm s ∧ s.active = [] ∧
    ¬ s.draft.isEmpty ∧
    (s.run (.addRecord "author" "a" :: employerRun)).data.records.map (·.id) = ["c", "a", "b"] ∧
    (s.run (.addRecord "author" "a" :: employerRun)).cancel.data = s.commit.data ∧
    s.commit.data.records.map (·.id) = ["c"] := by
  obtain ⟨s₀, hstart, -⟩ := exists_start (f := nestedForm) (List.cons_ne_nil _ _)
  have hfresh : s₀.FreshRun (titledRun ++ .addRecord "author" "a" :: employerRun) :=
    freshRun_of_start hstart (by decide)
  obtain ⟨hauthor, hemployer⟩ := freshRun_append.1 hfresh
  have h : Reached nestedForm (s₀.run titledRun) := ⟨s₀, titledRun, hstart, hauthor, rfl⟩
  generalize hs : s₀.run titledRun = s at h hemployer
  obtain ⟨hactive, hdraft, herror, hids, hrest⟩ : s.active = [] ∧ ¬ s.draft.isEmpty ∧
      s.error? (.addRecord "author" "a") = none ∧
      (s.run (.addRecord "author" "a" :: employerRun)).data.records.map (·.id) = ["c", "a", "b"] ∧
      s.commit.data.records.map (·.id) = ["c"] := by
    cases hstart
    cases hs
    decide
  have hcancel := (cancel_takes_back h).2 hactive _ _ _ herror hemployer (by decide)
  exact ⟨s, h, hactive, hdraft, hids, hcancel, hrest⟩

end Session
end Questionnaire
