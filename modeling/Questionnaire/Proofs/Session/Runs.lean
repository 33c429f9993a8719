import Mathlib.Data.List.Nodup
import Questionnaire.Proofs.Session.Outcome

/-
  Runs whose records are added under fresh ids.

  A record is added under an id that no record has at that moment (`FreshRun`). Ids that differ
  among themselves and from those already there are fresh in every run (`freshRun_of_nodup`).
  `run_induction` carries what one action keeps along a run. `Reached` are the sessions that such
  runs come to.
-/

namespace Questionnaire.Session

/-- An action adds a record only under an id that no record has. -/
def Fresh (s : Session) : SessionAction → Prop
  | .addRecord _ fresh => ∀ r ∈ s.data.records, r.id ≠ fresh
  | _ => True

/-- Every action of a run adds a record only under an id that no record has at that moment. -/
def FreshRun (s : Session) : List SessionAction → Prop
  | [] => True
  | a :: actions => s.Fresh a ∧ (s.perform a).FreshRun actions

/-- What every action keeps holds after every run. -/
theorem run_induction {motive : Session → Prop}
    (hstep : ∀ s a, motive s → s.Fresh a → motive (s.perform a)) {s : Session}
    {actions : List SessionAction} (hs : motive s) (hfresh : s.FreshRun actions) :
    motive (s.run actions) := by
  induction actions generalizing s with
  | nil => exact hs
  | cons a actions ih => exact ih (hstep s a hs hfresh.1) hfresh.2

theorem freshRun_append {s : Session} {actions more : List SessionAction} :
    s.FreshRun (actions ++ more) ↔ s.FreshRun actions ∧ (s.run actions).FreshRun more := by
  induction actions generalizing s with
  | nil => exact ⟨fun h => ⟨trivial, h⟩, And.right⟩
  | cons a actions ih =>
    show s.Fresh a ∧ (s.perform a).FreshRun (actions ++ more) ↔
      (s.Fresh a ∧ (s.perform a).FreshRun actions) ∧ _
    rw [ih, and_assoc]
    rfl

/-- A session that a run comes to from the start of a form. -/
def Reached (f : Form) (s : Session) : Prop :=
  ∃ s₀ actions, start f = .ok s₀ ∧ s₀.FreshRun actions ∧ s₀.run actions = s

theorem Reached.run {f : Form} {s : Session} (h : Reached f s) {actions : List SessionAction}
    (hfresh : s.FreshRun actions) : Reached f (s.run actions) := by
  obtain ⟨s₀, before, hstart, hbefore, rfl⟩ := h
  exact ⟨s₀, before ++ actions, hstart, freshRun_append.2 ⟨hbefore, hfresh⟩, List.foldl_append⟩

theorem Reached.perform {f : Form} {s : Session} (h : Reached f s) {a : SessionAction}
    (hfresh : s.Fresh a) : Reached f (s.perform a) :=
  have hrun : s.FreshRun [a] := ⟨hfresh, trivial⟩
  h.run hrun

/-! ## Ids that differ -/

/-- The ids that a run brings for new records. -/
def newIds (actions : List SessionAction) : List String :=
  actions.filterMap fun
    | .addRecord _ fresh => some fresh
    | _ => none

theorem mem_rollBack {d : FormData} {active : List ActiveRecord} {r : ChildRecord}
    (h : r ∈ (rollBack d active).records) : r ∈ d.records := by
  induction active with
  | nil => exact h
  | cons a active ih =>
    rw [rollBack, List.foldr_cons] at h
    split at h
    · exact ih (FormData.mem_removeRecord.1 h).1
    · exact ih h

/-- Committing makes no new ids. -/
theorem exists_id_of_commit {s : Session} {r : ChildRecord} (h : r ∈ s.commit.data.records) :
    ∃ r' ∈ s.data.records, r'.id = r.id := by
  obtain ⟨r', hr', hframe⟩ := FormData.mem_of_frames_eq (frames_commit s) h
  exact ⟨r', hr', (ChildRecord.frame_eq_iff.1 hframe).1⟩

theorem ne_id_of_commit {s : Session} {id : String} (h : ∀ r ∈ s.data.records, r.id ≠ id) :
    ∀ r ∈ s.commit.data.records, r.id ≠ id := by
  intro r hr heq
  obtain ⟨r', hr', hid⟩ := exists_id_of_commit hr
  exact h r' hr' (hid.trans heq)

/-- A record is there before an action, or the action adds it. -/
theorem exists_id_of_perform {s : Session} {a : SessionAction} {r : ChildRecord}
    (h : r ∈ (s.perform a).data.records) :
    (∃ r' ∈ s.data.records, r'.id = r.id) ∨ ∃ field, a = .addRecord field r.id := by
  have hout := s.outcome_perform a
  generalize s.perform a = t at h hout
  cases hout with
  | failed | edited | spoken => exact .inl ⟨r, h, rfl⟩
  | nextPage | nextStep | nextEnd | previousPage | previousStep | previousEnd | navigatedWithin
  | navigated | opened => exact .inl (exists_id_of_commit h)
  | saved | finished =>
    obtain ⟨failures, hsave⟩ := s.save_eq
    rw [hsave] at h
    exact .inl (exists_id_of_commit h)
  | added =>
    rcases List.mem_append.1 h with h | h
    · exact .inl (exists_id_of_commit h)
    · rw [List.mem_singleton] at h
      exact .inr ⟨_, by rw [h]⟩
  | deletedOther | deletedActive => exact .inl ⟨r, (FormData.mem_removeRecord.1 h).1, rfl⟩
  | cancelled => exact .inl ⟨r, mem_rollBack h, rfl⟩

/-- Ids that differ among themselves and from those already there are fresh. -/
theorem freshRun_of_nodup {s : Session} {actions : List SessionAction}
    (hnodup : (newIds actions).Nodup) (hnew : ∀ r ∈ s.data.records, r.id ∉ newIds actions) :
    s.FreshRun actions := by
  induction actions generalizing s with
  | nil => trivial
  | cons a actions ih =>
    have hsub : (newIds actions).Sublist (newIds (a :: actions)) :=
      (List.sublist_cons_self a actions).filterMap _
    constructor
    · cases a with
      | addRecord field fresh =>
        intro r hr hid
        exact hnew r hr (hid ▸ List.mem_cons_self)
      | _ => trivial
    · refine ih (hnodup.sublist hsub) fun r hr hmem => ?_
      rcases exists_id_of_perform hr with ⟨r', hr', hid⟩ | ⟨field, rfl⟩
      · exact hnew r' hr' (hid ▸ hsub.subset hmem)
      · exact (List.nodup_cons.1 hnodup).1 hmem

/-- A session starts at the first step, with nothing entered. -/
theorem eq_of_start {f : Form} {s : Session} (h : start f = .ok s) :
    ∃ first rest, f.steps = first :: rest ∧ s =
      { form := f
        language := defaultLanguage
        step := 0
        pages := f.steps.map fun _ => 0
        visited := SortedMap.empty.insert first.id ()
        data := {}
        draft := ∅
        active := []
        failures := {} } := by
  unfold start at h
  split at h
  · cases h
  · next first rest hsteps => exact ⟨first, rest, hsteps, (Except.ok.inj h).symm⟩

/-- From the start of a form, ids that differ are fresh. -/
theorem freshRun_of_start {f : Form} {s : Session} (h : start f = .ok s)
    {actions : List SessionAction} (hnodup : (newIds actions).Nodup) : s.FreshRun actions := by
  obtain ⟨first, rest, -, rfl⟩ := eq_of_start h
  exact freshRun_of_nodup hnodup fun r hr => absurd hr List.not_mem_nil

/-- From the start of a form every run whose ids differ comes to a session. -/
theorem reached_of_start {f : Form} {s₀ : Session} (h : start f = .ok s₀)
    {actions : List SessionAction} (hnodup : (newIds actions).Nodup) :
    Reached f (s₀.run actions) :=
  ⟨s₀, actions, h, freshRun_of_start h hnodup, rfl⟩

/-! ## A run into nested records -/

/-- A form whose works lead to persons, and persons to firms. -/
def nestedForm : Form where
  steps := [
    { id := "work"
      pages := [{ sections := [{ fields := [
        { id := "title" }, { id := "author", kind := .reference, target := some "person" }] }] }] },
    { id := "person"
      pages := [{ sections := [{ fields := [
        { id := "name" }, { id := "employer", kind := .reference, target := some "firm" }] }] }] },
    { id := "firm", pages := [{ sections := [{ fields := [{ id := "name" }] }] }] }]

/-- A package whose works lead to persons, and persons to firms. -/
def nestedPackage : Package where
  bundle := {
    main := { captureBase := {
      digest := "work", attributes := [("title", .text "Text"), ("author", .text "refs:person")] } }
    dependencies := [
      { captureBase := {
        digest := "person", attributes := [("name", .text "Text"), ("employer", .text "refs:firm")] } },
      { captureBase := { digest := "firm", attributes := [("name", .text "Text")] } }] }
  presentations := [
    { captureBase := "work"
      interactions := [SortedMap.empty.insert "author" { kind := some (.name "reference") }] },
    { captureBase := "person"
      interactions := [SortedMap.empty.insert "employer" { kind := some (.name "reference") }] }]

/-- A run that ends in a record within a record. -/
def nestedRun : List SessionAction := [
  .edit "title" (.text "Notes"), .addRecord "author" "a", .edit "name" (.text "Ada"),
  .addRecord "employer" "b", .edit "name" (.text "Mill")]

end Questionnaire.Session
