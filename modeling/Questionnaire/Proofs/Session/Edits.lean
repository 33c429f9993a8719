import Questionnaire.Proofs.Session.Position

/-
  Answers are kept where they were entered.

  An edit belongs to the scope that is active when it is made (`entries`). What a session holds
  for a field of a scope, committed or still in the draft (`held?`), is the last answer entered
  for it there. Committing does not change what is held (`stored?_commit`), since the draft goes
  to the scope it was entered in; `held?_perform` adds what an edit enters, and
  `held?_run_of_inPlace` collects it along a run.
-/

namespace Questionnaire.Session

/-! ## What a session holds -/

/-- The committed answer for a field of a scope. -/
def stored? (d : FormData) (field : String) : Scope → Option Answer
  | .step id => (d.stepValues? id).bind (·.get? field)
  | .record id => (d.record? id).bind (·.values.get? field)

/-- The answer held for a field of a scope: the committed one, overlaid by the draft if the scope
is the active one. -/
def held? (s : Session) (scope : Scope) (field : String) : Option Answer :=
  (if scope = s.scope then s.draft.get? field else none).or (stored? s.data field scope)

theorem committed?_bind (s : Session) (scope : Scope) (field : String) :
    (s.committed? scope).bind (·.get? field) = stored? s.data field scope := by
  cases scope with
  | step id => rfl
  | record id => exact Option.bind_map

/-- In the active scope the value shown is the one held. -/
theorem value?_eq_held? (s : Session) (field : String) : s.value? field = s.held? s.scope field := by
  rw [value?, held?, if_pos rfl, committed?_bind]

theorem held?_of_isEmpty {s : Session} (h : s.draft.isEmpty) (scope : Scope) (field : String) :
    s.held? scope field = stored? s.data field scope := by
  rw [held?, SortedMap.get?_of_isEmpty h, ite_self, Option.none_or]

/-! ## Filing -/

theorem get?_getD_union (old : Option Values) (draft : Values) (field : String) :
    ((old.getD ∅).union draft).get? field = (draft.get? field).or (old.bind (·.get? field)) := by
  rw [SortedMap.get?_union]
  cases old <;> rfl

/-- Filing a draft overlays the answers of its scope. -/
theorem stored?_file {d : FormData} {scope : Scope}
    (h : ∀ id, scope = .record id → ∃ r, d.record? id = some r) (draft : Values) (field : String)
    (other : Scope) : stored? (file d draft scope) field other =
      (if other = scope then draft.get? field else none).or (stored? d field other) := by
  cases scope with
  | step id =>
    cases other with
    | record key => simp [file, stored?, FormData.record?]
    | step key =>
      show ((d.steps.insert id (((d.steps.get? id).getD ∅).union draft)).get? key).bind _ = _
      rw [SortedMap.get?_insert]
      by_cases hkey : key = id
      · subst hkey
        rw [if_pos rfl, if_pos rfl, Option.bind_some, get?_getD_union]
        rfl
      · rw [if_neg hkey, if_neg (by simpa using hkey), Option.none_or]
        rfl
  | record id =>
    cases other with
    | step key => simp [file, stored?, FormData.stepValues?, FormData.modifyRecord]
    | record key =>
      show ((d.modifyRecord id fun r => { r with values := r.values.union draft }).record? key).bind
        _ = _
      rw [FormData.record?_modifyRecord (by intro r; rfl)]
      by_cases hkey : key = id
      · subst hkey
        obtain ⟨r, hr⟩ := h key rfl
        rw [if_pos rfl, if_pos rfl, stored?, hr]
        exact SortedMap.get?_union _ _ _
      · rw [if_neg hkey, if_neg (by simpa using hkey), Option.none_or]
        rfl

/-- Committing files what is held. -/
theorem stored?_commit {s : Session} (h : s.InPlace) (scope : Scope) (field : String) :
    stored? s.commit.data field scope = s.held? scope field := by
  have hscope (id : String) (hid : s.scope = .record id) : ∃ r, s.data.record? id = some r := by
    unfold Session.scope at hid
    split at hid
    · next a rest ha =>
      cases hid
      obtain ⟨r, hr, _⟩ := h.innermost a rest ha
      exact ⟨r, hr⟩
    · cases hid
  unfold commit
  split
  · next hempty => exact (held?_of_isEmpty hempty scope field).symm
  · exact stored?_file hscope s.draft field scope

/-- After a commit the same is held, wherever the user goes. -/
theorem held?_of_commit {s t : Session} (h : s.InPlace) (hdraft : t.draft = s.commit.draft)
    (hdata : t.data = s.commit.data) (scope : Scope) (field : String) :
    t.held? scope field = s.held? scope field := by
  have hempty : t.draft.isEmpty := hdraft ▸ s.commit_draft
  rw [held?_of_isEmpty hempty, hdata, stored?_commit h]

/-- A new record holds nothing. -/
theorem stored?_addRecord (d : FormData) {r : ChildRecord} (hr : r.values = ∅) (field : String)
    (scope : Scope) : stored? (d.addRecord r) field scope = stored? d field scope := by
  cases scope with
  | step id => rfl
  | record id =>
    simp only [stored?]
    rw [FormData.record?_addRecord]
    cases d.record? id with
    | some r' => rfl
    | none =>
      rw [Option.none_or]
      split
      · rw [Option.bind_some, hr]
        rfl
      · rfl

/-! ## What is entered -/

/-- An answer entered for a field of a scope. -/
structure Entry where
  scope : Scope
  field : String
  answer : Answer

/-- What an action enters: the answer of an edit that does not fail, in the active scope. -/
def entered? (s : Session) : SessionAction → Option Entry
  | .edit field x =>
    match s.error? (.edit field x) with
    | none => some ⟨s.scope, field, x⟩
    | some _ => none
  | _ => none

/-- What a run enters, in order. -/
def entries (s : Session) : List SessionAction → List Entry
  | [] => []
  | a :: actions => (s.entered? a).toList ++ (s.perform a).entries actions

/-- The last answer entered for a field of a scope. -/
def lastAnswer? (entries : List Entry) (scope : Scope) (field : String) : Option Answer :=
  (entries.reverse.find? fun e => e.scope = scope ∧ e.field = field).map (·.answer)

theorem lastAnswer?_append (xs ys : List Entry) (scope : Scope) (field : String) :
    lastAnswer? (xs ++ ys) scope field =
      (lastAnswer? ys scope field).or (lastAnswer? xs scope field) := by
  rw [lastAnswer?, List.reverse_append, List.find?_append, Option.map_or]
  rfl

theorem entered?_of_error {s : Session} {a : SessionAction} {e : FormError}
    (h : s.error? a = some e) : s.entered? a = none := by
  cases a with
  | edit field x => simp [entered?, h]
  | _ => rfl

theorem entered?_edit {s : Session} {field : String} {f : Field}
    (h : s.currentStep.field? field = some f) (x : Answer) :
    s.entered? (.edit field x) = some ⟨s.scope, field, x⟩ := by
  have hnone : s.error? (.edit field x) = none := by
    simp [error?, edit, field_eq, h, bind, Except.bind, pure, Except.pure, error?.errorOf]
  simp [entered?, hnone]

/-! ## Runs -/

/-- Whether an action takes back no answers: all do but deleting a record and cancelling. -/
def keepsAnswers : SessionAction → Bool
  | .deleteRecord _ | .cancel => false
  | _ => true

theorem held?_edited {s : Session} (field : String) (x : Answer) (scope : Scope) (key : String)
    (failures : Failures) :
    ({ s with draft := s.draft.insert field x, failures } : Session).held? scope key =
      (lastAnswer? [⟨s.scope, field, x⟩] scope key).or (s.held? scope key) := by
  show (if scope = s.scope then (s.draft.insert field x).get? key else none).or _ = _
  rw [SortedMap.get?_insert, held?, lastAnswer?]
  by_cases hscope : scope = s.scope
  · by_cases hkey : key = field
    · simp [hscope, hkey]
    · simp [hscope, hkey, Ne.symm hkey]
  · simp [hscope, Ne.symm hscope]

/-- An action adds to what is held the answer that it enters, and changes nothing else. -/
theorem held?_perform {s : Session} {a : SessionAction} (h : s.InPlace) (hk : keepsAnswers a)
    (scope : Scope) (field : String) : (s.perform a).held? scope field =
      (lastAnswer? (s.entered? a).toList scope field).or (s.held? scope field) := by
  have hout := s.outcome_perform a
  generalize s.perform a = t at hout
  cases hout with
  | failed herror =>
    rw [entered?_of_error herror]
    rfl
  | edited hfield =>
    rw [entered?_edit hfield]
    exact held?_edited _ _ scope field _
  | spoken => rfl
  | nextPage | nextStep | nextEnd | previousPage | previousStep | previousEnd | navigatedWithin
  | navigated | opened =>
    show _ = s.held? scope field
    refine held?_of_commit h ?_ ?_ scope field
    · rfl
    · rfl
  | saved | finished =>
    obtain ⟨failures, hsave⟩ := s.save_eq
    rw [hsave]
    show _ = s.held? scope field
    refine held?_of_commit h ?_ ?_ scope field
    · rfl
    · rfl
  | added =>
    show _ = s.held? scope field
    refine (held?_of_isEmpty ?_ scope field).trans ?_
    · exact s.commit_draft
    · exact (stored?_addRecord _ rfl field scope).trans (stored?_commit h scope field)
  | deletedOther | deletedActive | cancelled => cases hk

theorem held?_start {f : Form} {s : Session} (h : start f = .ok s) (scope : Scope)
    (field : String) : s.held? scope field = none := by
  obtain ⟨first, rest, -, rfl⟩ := eq_of_start h
  rw [held?_of_isEmpty rfl]
  cases scope <;> rfl

theorem held?_run_of_inPlace {s : Session} {actions : List SessionAction} (h : s.InPlace)
    (hfresh : s.FreshRun actions) (hk : ∀ a ∈ actions, keepsAnswers a) (scope : Scope)
    (field : String) : (s.run actions).held? scope field =
      (lastAnswer? (s.entries actions) scope field).or (s.held? scope field) := by
  induction actions generalizing s with
  | nil => rfl
  | cons a actions ih =>
    have hstep := held?_perform h (hk a List.mem_cons_self) scope field
    have hrest := ih (inPlace_perform h hfresh.1) hfresh.2 fun b hb =>
      hk b (List.mem_cons_of_mem _ hb)
    calc (s.run (a :: actions)).held? scope field
        = (lastAnswer? ((s.perform a).entries actions) scope field).or
            ((s.perform a).held? scope field) := hrest
      _ = (lastAnswer? (s.entries (a :: actions)) scope field).or (s.held? scope field) := by
        rw [hstep, entries, lastAnswer?_append, Option.or_assoc]

/-- From the start of any form with a step, after every run that deletes and cancels nothing, what
is held for a field of a scope is the last answer entered for that field while that scope was
active, and nothing if there was none. -/
theorem held?_run {f : Form} (hsteps : f.steps ≠ []) :
    ∃ s₀, start f = .ok s₀ ∧ ∀ actions, s₀.FreshRun actions →
      (∀ a ∈ actions, keepsAnswers a) → ∀ scope field,
        (s₀.run actions).held? scope field = lastAnswer? (s₀.entries actions) scope field := by
  obtain ⟨s₀, hstart, _⟩ := exists_start hsteps
  refine ⟨s₀, hstart, fun actions hfresh hk scope field => ?_⟩
  rw [held?_run_of_inPlace (inPlace_start hstart) hfresh hk, held?_start hstart, Option.or_none]

/-- Of two fields with one id, each record holds what was entered in it. -/
theorem held?_run_nested : nestedForm.steps ≠ [] ∧ ∃ s₀, start nestedForm = .ok s₀ ∧
    s₀.FreshRun nestedRun ∧ (∀ a ∈ nestedRun, keepsAnswers a) ∧
      (s₀.run nestedRun).held? (.record "a") "name" = some (.text "Ada") ∧
      (s₀.run nestedRun).held? (.record "b") "name" = some (.text "Mill") ∧
      (s₀.run nestedRun).held? (.step "person") "name" = none := by
  have hsteps : nestedForm.steps ≠ [] := List.cons_ne_nil _ _
  obtain ⟨s₀, hstart, hrun⟩ := held?_run hsteps
  have hfresh : s₀.FreshRun nestedRun := freshRun_of_start hstart (by decide)
  have hkeeps : ∀ a ∈ nestedRun, keepsAnswers a := by decide
  have hheld := hrun nestedRun hfresh hkeeps
  refine ⟨hsteps, s₀, hstart, hfresh, hkeeps, ?_⟩
  rw [hheld, hheld, hheld]
  cases hstart
  decide

end Questionnaire.Session
