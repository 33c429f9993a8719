import Mathlib
import Questionnaire.Proofs.Session.Parents

/-
  Which records a field shows.

  A record is made for a field while some scope is active (`Making`). What is kept of that scope is
  the record that owns the new one, if it is a record: of a step nothing is kept. So the records
  shown for a field are those made for a field of that name in a scope with the same owner
  (`recordsOf_eq`): in a record those made there, outside all records those made at any step.

  Records stay in the order in which they were made (`Traced`), since new ones come last and the
  others can only be taken away.
-/

namespace Questionnaire

/-! ## Makings -/

/-- The record that owns what is made in a scope. -/
def Scope.owner? : Scope → Option String
  | .step _ => none
  | .record id => some id

theorem Scope.owner?_eq_some_iff {scope : Scope} {id : String} :
    scope.owner? = some id ↔ scope = .record id := by
  cases scope <;> simp [owner?]

theorem Scope.owner?_eq_none_iff {scope : Scope} :
    scope.owner? = none ↔ ∃ id, scope = .step id := by
  cases scope <;> simp [owner?]

/-- The making of a record: the scope that was active, the field it was made for, and its id. -/
structure Making where
  scope : Scope
  field : String
  id : String
deriving DecidableEq

/-- The last making under an id. -/
def origin? (makings : List Making) (id : String) : Option Making :=
  makings.reverse.find? (·.id = id)

theorem origin?_snoc (makings : List Making) (m : Making) (id : String) :
    origin? (makings ++ [m]) id = if m.id = id then some m else origin? makings id := by
  rw [origin?, List.reverse_append, List.reverse_singleton, List.singleton_append, List.find?_cons]
  by_cases h : m.id = id
  · simp [h]
  · simp [h, origin?]

/-- A record was made for a field while a scope was active. -/
def MadeIn (makings : List Making) (scope : Scope) (field : String) (r : ChildRecord) : Prop :=
  ∃ m ∈ origin? makings r.id, m.scope = scope ∧ m.field = field

/-- A record was made for a field while some scope with an owner was active. -/
def MadeUnder (makings : List Making) (owner : Option String) (field : String) (r : ChildRecord) :
    Prop :=
  ∃ m ∈ origin? makings r.id, m.scope.owner? = owner ∧ m.field = field

instance (makings : List Making) (scope : Scope) (field : String) :
    DecidablePred (MadeIn makings scope field) :=
  fun r => inferInstanceAs (Decidable (∃ m ∈ origin? makings r.id, _))

instance (makings : List Making) (owner : Option String) (field : String) :
    DecidablePred (MadeUnder makings owner field) :=
  fun r => inferInstanceAs (Decidable (∃ m ∈ origin? makings r.id, _))

/-! ## Where records come from -/

namespace FormData

variable {d d' : FormData} {makings : List Making}

/-- The records are in the order of their makings, and each has the field and the owner of its
own. -/
structure Traced (d : FormData) (makings : List Making) : Prop where
  order : (d.records.map (·.id)).Sublist (makings.map (·.id))
  made : ∀ r ∈ d.records, ∃ m, origin? makings r.id = some m ∧ m.field = r.field ∧
    m.scope.owner? = r.owner

namespace Traced

/-- Filing answers and taking records away leave records where they come from. -/
theorem of_sublist (h : d.Traced makings) (hframes : d'.frames.Sublist d.frames) :
    d'.Traced makings where
  order := by
    have hids := hframes.map (·.id)
    rw [map_id_frames, map_id_frames] at hids
    exact hids.trans h.order
  made r hr := by
    have hmem : r.frame ∈ d.frames := hframes.subset (List.mem_map_of_mem hr)
    obtain ⟨r', hr', hframe⟩ := List.mem_map.1 hmem
    obtain ⟨hid, hfield, howner, -⟩ := ChildRecord.frame_eq_iff.1 hframe
    rw [← hid, ← hfield, ← howner]
    exact h.made r' hr'

theorem addRecord (h : d.Traced makings) {r : ChildRecord} (hnew : ∀ x ∈ d.records, x.id ≠ r.id)
    {scope : Scope} (howner : scope.owner? = r.owner) :
    (d.addRecord r).Traced (makings ++ [⟨scope, r.field, r.id⟩]) where
  order := by
    rw [FormData.addRecord, List.map_append, List.map_append]
    exact h.order.append_right _
  made x hx := by
    rw [origin?_snoc]
    rcases List.mem_append.1 hx with hx | hx
    · rw [if_neg fun hid => hnew x hx hid.symm]
      exact h.made x hx
    · rw [List.mem_singleton.1 hx, if_pos rfl]
      exact ⟨_, rfl, rfl, howner⟩

/-- The records of a field and an owner are those made so. -/
theorem recordsOf_eq (h : d.Traced makings) (field : String) (owner : Option String) :
    d.recordsOf field owner = d.records.filter (MadeUnder makings owner field) := by
  refine List.filter_congr fun r hr => ?_
  obtain ⟨m, hm, hfield, howner⟩ := h.made r hr
  simp [MadeUnder, hm, hfield, howner, and_comm]

end Traced

theorem frames_sublist_removeRecord (d : FormData) (id : String) :
    (d.removeRecord id).frames.Sublist d.frames :=
  List.filter_sublist.map ChildRecord.frame

theorem frames_sublist_rollBack (d : FormData) (active : List ActiveRecord) :
    (Session.rollBack d active).frames.Sublist d.frames := by
  induction active with
  | nil => exact List.Sublist.refl _
  | cons a active ih =>
    rw [Session.rollBack, List.foldr_cons]
    split
    · exact (frames_sublist_removeRecord _ _).trans ih
    · exact ih

end FormData

namespace Session

variable {s : Session}

theorem scope_of_active {a : ActiveRecord} {rest : List ActiveRecord} (h : s.active = a :: rest) :
    s.scope = .record a.id := by
  rw [scope, h]

theorem scope_of_nil (h : s.active = []) : s.scope = .step s.currentStep.id := by
  rw [scope, h]

theorem owner?_scope (s : Session) : s.scope.owner? = s.active.head?.map (·.id) := by
  cases h : s.active with
  | nil => rw [scope_of_nil h]; rfl
  | cons a rest => rw [scope_of_active h]; rfl

/-! ## The makings of a run -/

/-- What an action makes: the record of an adding that does not fail, in the active scope. -/
def made? (s : Session) : SessionAction → Option Making
  | .addRecord field fresh =>
    match s.error? (.addRecord field fresh) with
    | none => some ⟨s.scope, field, fresh⟩
    | some _ => none
  | _ => none

/-- What a run makes, in order. -/
def makings (s : Session) : List SessionAction → List Making
  | [] => []
  | a :: actions => (s.made? a).toList ++ (s.perform a).makings actions

theorem made?_of_error {a : SessionAction} {e : FormError} (h : s.error? a = some e) :
    s.made? a = none := by
  cases a with
  | addRecord field fresh => simp [made?, h]
  | _ => rfl

theorem made?_addRecord {field target : String} {f : Field} {step : Nat}
    (hfield : s.currentStep.field? field = some f) (htarget : f.referenceTarget? = some target)
    (hstep : s.form.stepIndex? target = some step) (fresh : String) :
    s.made? (.addRecord field fresh) = some ⟨s.scope, field, fresh⟩ := by
  have hnone : s.error? (.addRecord field fresh) = none := by
    simp [error?, addRecord, field_eq, hfield, htarget, hstep, bind, Except.bind, pure, Except.pure,
      error?.errorOf]
  simp [made?, hnone]

/-- An action adds its making, and else takes records away at most. -/
theorem traced_perform {a : SessionAction} (hfresh : s.Fresh a) {makings : List Making}
    (h : s.data.Traced makings) :
    (s.perform a).data.Traced (makings ++ (s.made? a).toList) := by
  have hcommit : s.commit.data.frames.Sublist s.data.frames :=
    frames_commit s ▸ List.Sublist.refl _
  have hmadeNothing {t : Session} (hnone : s.made? a = none)
      (hframes : t.data.frames.Sublist s.data.frames) :
      t.data.Traced (makings ++ (s.made? a).toList) := by
    rw [hnone, Option.toList_none, List.append_nil]
    exact h.of_sublist hframes
  have hout := s.outcome_perform a
  generalize s.perform a = t at hout
  cases hout with
  | failed herror => exact hmadeNothing (made?_of_error herror) (List.Sublist.refl _)
  | @added field fresh f target step hfield htarget hstep =>
    rw [made?_addRecord hfield htarget hstep]
    have hnew : ∀ x ∈ s.commit.data.records, x.id ≠ fresh := ne_id_of_commit hfresh
    exact (h.of_sublist hcommit).addRecord hnew (owner?_scope s)
  | edited | spoken => exact hmadeNothing rfl (List.Sublist.refl _)
  | nextPage | nextStep | nextEnd | previousPage | previousStep | previousEnd | navigatedWithin
  | navigated | opened => exact hmadeNothing rfl hcommit
  | saved | finished =>
    obtain ⟨failures, hsave⟩ := s.save_eq
    rw [hsave]
    exact hmadeNothing rfl hcommit
  | deletedOther | deletedActive =>
    exact hmadeNothing rfl (FormData.frames_sublist_removeRecord _ _)
  | cancelled => exact hmadeNothing rfl (FormData.frames_sublist_rollBack _ _)

theorem traced_run {actions : List SessionAction} (hfresh : s.FreshRun actions)
    {makings : List Making} (h : s.data.Traced makings) :
    (s.run actions).data.Traced (makings ++ s.makings actions) := by
  induction actions generalizing s makings with
  | nil =>
    rw [Session.makings, List.append_nil]
    exact h
  | cons a actions ih =>
    have hrest := ih hfresh.2 (traced_perform hfresh.1 h)
    rwa [List.append_assoc] at hrest

/-! ## The records of a field -/

/-- What is made under a record is made in it. -/
theorem madeUnder_some_iff {makings : List Making} {id field : String} {r : ChildRecord} :
    MadeUnder makings (some id) field r ↔ MadeIn makings (.record id) field r := by
  simp only [MadeUnder, MadeIn, Scope.owner?_eq_some_iff]

/-- What is made outside all records is made at some step. -/
theorem madeUnder_none_iff {makings : List Making} {field : String} {r : ChildRecord} :
    MadeUnder makings none field r ↔ ∃ step, MadeIn makings (.step step) field r := by
  simp only [MadeUnder, MadeIn, Scope.owner?_eq_none_iff]
  constructor
  · rintro ⟨m, hm, ⟨step, hscope⟩, hfield⟩
    exact ⟨step, m, hm, hscope, hfield⟩
  · rintro ⟨step, m, hm, hscope, hfield⟩
    exact ⟨m, hm, ⟨step, hscope⟩, hfield⟩

/-- A record is made in one scope. -/
theorem scope_eq_of_madeIn {makings : List Making} {scope scope' : Scope} {field : String}
    {r : ChildRecord} (h : MadeIn makings scope field r) (h' : MadeIn makings scope' field r) :
    scope = scope' := by
  obtain ⟨m, hm, rfl, -⟩ := h
  obtain ⟨m', hm', rfl, -⟩ := h'
  rw [Option.some.inj (hm.symm.trans hm')]

/-- Two parts of a list agree exactly when the larger one holds nothing else. -/
theorem filter_eq_filter_iff {α : Type} {P Q : α → Prop} [DecidablePred P] [DecidablePred Q]
    {xs : List α} (himp : ∀ x, Q x → P x) :
    xs.filter P = xs.filter Q ↔ ∀ x ∈ xs, P x → Q x := by
  constructor
  · intro heq x hx hp
    have hmem : x ∈ xs.filter P := List.mem_filter.2 ⟨hx, decide_eq_true hp⟩
    rw [heq] at hmem
    exact of_decide_eq_true (List.mem_filter.1 hmem).2
  · intro h
    refine List.filter_congr fun x hx => ?_
    simp only [decide_eq_decide]
    exact ⟨h x hx, himp x⟩

/-- From the start of any form with a step, after every run, records are in the order in which they
were made, and the records shown for a field are the existing ones made for a field of that name in
a scope with the same owner. In a record these are the ones made for the field in that record.
Outside all records they are the ones made for the field at the current step exactly when none that
exists was made for a field of that name at another step. -/
theorem records_run {f : Form} (hsteps : f.steps ≠ []) :
    ∃ s₀, start f = .ok s₀ ∧ ∀ actions, s₀.FreshRun actions → ∀ s, s₀.run actions = s →
      ∀ makings, s₀.makings actions = makings →
        (s.data.records.map (·.id)).Sublist (makings.map (·.id)) ∧ ∀ field,
          s.records field = s.data.records.filter (MadeUnder makings s.scope.owner? field) ∧
          (s.active ≠ [] →
            s.records field = s.data.records.filter (MadeIn makings s.scope field)) ∧
          (s.active = [] →
            (s.records field = s.data.records.filter (MadeIn makings s.scope field) ↔
              ∀ r ∈ s.data.records, ∀ step, MadeIn makings (.step step) field r →
                step = s.currentStep.id)) := by
  obtain ⟨s₀, hstart, -⟩ := exists_start hsteps
  refine ⟨s₀, hstart, fun actions hfresh s hs makings hmakings => ?_⟩
  have hempty : s₀.data.Traced [] := by
    obtain ⟨first, rest, -, rfl⟩ := eq_of_start hstart
    exact ⟨List.Sublist.refl _, fun r hr => absurd hr List.not_mem_nil⟩
  have htraced := traced_run hfresh hempty
  rw [hs, hmakings, List.nil_append] at htraced
  refine ⟨htraced.order, fun field => ?_⟩
  have hrecords : s.records field =
      s.data.records.filter (MadeUnder makings s.scope.owner? field) := by
    rw [records, ← owner?_scope, htraced.recordsOf_eq]
  have hiff : s.records field = s.data.records.filter (MadeIn makings s.scope field) ↔
      ∀ r ∈ s.data.records, MadeUnder makings s.scope.owner? field r →
        MadeIn makings s.scope field r := by
    rw [hrecords]
    exact filter_eq_filter_iff fun r ⟨m, hm, hscope, hfield⟩ => ⟨m, hm, hscope ▸ rfl, hfield⟩
  refine ⟨hrecords, fun hactive => hiff.2 fun r _ hmade => ?_, fun hactive => hiff.trans ?_⟩
  · obtain ⟨a, rest, ha⟩ := List.exists_cons_of_ne_nil hactive
    rw [scope_of_active ha] at hmade ⊢
    exact madeUnder_some_iff.1 hmade
  · rw [scope_of_nil hactive]
    constructor
    · intro h r hr step hmade
      have hhere := h r hr (madeUnder_none_iff.2 ⟨step, hmade⟩)
      exact Scope.step.inj (scope_eq_of_madeIn hmade hhere)
    · intro h r hr hmade
      obtain ⟨step, hmade⟩ := madeUnder_none_iff.1 hmade
      exact h r hr step hmade ▸ hmade

/-! ## Authors of works and of letters -/

/-- A run that leads from an author back to the form and into an employer of a second one. -/
def employersRun : List SessionAction := [
  .addRecord "author" "a", .addRecord "employer" "b", .finish, .finish,
  .addRecord "author" "c", .addRecord "employer" "d", .finish]

theorem place_employersRun : (start (Form.compile nestedPackage)).toOption.any fun s =>
    (s.run employersRun).active.map (·.id) = ["c"] ∧
      ((s.run employersRun).records "employer").map (·.id) = ["d"] := by cbv

/-- The employer shown for the second author was made while that author was being edited. -/
theorem records_run_employers : (Form.compile nestedPackage).steps ≠ [] ∧
    ∃ s₀, start (Form.compile nestedPackage) = .ok s₀ ∧ s₀.FreshRun employersRun ∧
      ∃ r, (s₀.run employersRun).records "employer" = [r] ∧ r.id = "d" ∧
        MadeIn (s₀.makings employersRun) (.record "c") "employer" r := by
  obtain ⟨s₀, hstart, hrun⟩ := records_run steps_nestedPackage
  have hfresh : s₀.FreshRun employersRun := freshRun_of_start hstart (by decide)
  obtain ⟨hactive, hids⟩ := of_start hstart place_employersRun
  obtain ⟨-, hfield⟩ := hrun employersRun hfresh _ rfl _ rfl
  obtain ⟨-, hinside, -⟩ := hfield "employer"
  obtain ⟨a, ha, haid⟩ := List.map_eq_singleton_iff.1 hactive
  obtain ⟨r, hr, hrid⟩ := List.map_eq_singleton_iff.1 hids
  have hscope : (s₀.run employersRun).scope = .record "c" := by rw [scope_of_active ha, haid]
  have hmade : r ∈ (s₀.run employersRun).records "employer" := by simp [hr]
  rw [hinside (by simp [ha]), hscope] at hmade
  exact ⟨steps_nestedPackage, s₀, hstart, hfresh, r, hr, hrid,
    of_decide_eq_true (List.mem_filter.1 hmade).2⟩

/-- A package whose works and letters both have authors. -/
def letterPackage : Package where
  bundle := {
    main := { captureBase := { digest := "work", attributes := [("author", .text "refs:person")] } }
    dependencies := [
      { captureBase := { digest := "letter", attributes := [("author", .text "refs:person")] } },
      { captureBase := { digest := "person", attributes := [("name", .text "Text")] } }] }
  presentations := [
    { captureBase := "work"
      interactions := [SortedMap.empty.insert "author" { kind := some (.name "reference") }] },
    { captureBase := "letter"
      interactions := [SortedMap.empty.insert "author" { kind := some (.name "reference") }] }]

theorem steps_letterPackage : (Form.compile letterPackage).steps ≠ [] := by
  have hlength : (Form.compile letterPackage).steps.length = 3 := by cbv
  exact List.ne_nil_of_length_eq_add_one hlength

/-- A run that adds an author to the work and goes on to the letter. -/
def letterRun : List SessionAction := [.addRecord "author" "a", .finish, .navigate 1 0]

theorem place_letterRun : (start (Form.compile letterPackage)).toOption.any fun s =>
    (s.run letterRun).active = [] ∧ (s.run letterRun).currentStep.id = "letter" ∧
      s.makings letterRun = [⟨.step "work", "author", "a"⟩] ∧
      ((s.run letterRun).records "author").map (·.id) = ["a"] := by cbv

/-- The only record that was made, an author of the work, is shown as an author of the letter. -/
theorem author_shown_at_letter : ∃ s₀, start (Form.compile letterPackage) = .ok s₀ ∧
    s₀.FreshRun letterRun ∧ (s₀.run letterRun).scope = .step "letter" ∧
    s₀.makings letterRun = [⟨.step "work", "author", "a"⟩] ∧
    ∃ r ∈ (s₀.run letterRun).records "author",
      ¬ MadeIn (s₀.makings letterRun) (s₀.run letterRun).scope "author" r := by
  obtain ⟨s₀, hstart, -⟩ := exists_start steps_letterPackage
  obtain ⟨hactive, hstep, hmakings, hids⟩ := of_start hstart place_letterRun
  obtain ⟨r, hr, hrid⟩ := List.map_eq_singleton_iff.1 hids
  have hscope : (s₀.run letterRun).scope = .step "letter" := by rw [scope_of_nil hactive, hstep]
  refine ⟨s₀, hstart, freshRun_of_start hstart (by decide), hscope, hmakings, r, by simp [hr], ?_⟩
  rw [hmakings, hscope, MadeIn, hrid]
  decide

end Session
end Questionnaire
