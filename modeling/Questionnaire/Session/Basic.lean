import Questionnaire.Answer.Check
import Questionnaire.Answer.Records
import Questionnaire.Form.Basic

/-
  A form being filled in.

  A session knows where its user is: the current step and, for every step, the page last shown.
  Edits gather in a draft that belongs to the active scope: the innermost record that is being
  edited, or else the current step. Committing the draft files it under that scope. Failures of
  validation are kept for each scope by itself.
-/

namespace Questionnaire

/-- A record that is being edited. -/
structure ActiveRecord where
  id : String
  /-- The reference field that owns the record. -/
  field : String
  /-- Made when this edit began, not opened again. -/
  created : Bool
deriving DecidableEq, Repr

/-- Where answers and failures belong. -/
inductive Scope
  | step (id : String)
  | record (id : String)
deriving DecidableEq, Repr

/-! ## Recorded failures -/

/-- The failures recorded for each scope, by field. Steps and records have a map each. One map,
under the id of the step or record alone, agrees with the two only because the fresh id of a record
is never the id of a step; a step and a record of one id would share their failures there. -/
structure Failures where
  ofSteps : SortedMap (SortedMap Rejection) := ∅
  ofRecords : SortedMap (SortedMap Rejection) := ∅
deriving DecidableEq

namespace Failures

/-- The failures of a scope. -/
def within (f : Failures) : Scope → SortedMap Rejection
  | .step id => (f.ofSteps.get? id).getD ∅
  | .record id => (f.ofRecords.get? id).getD ∅

/-- A map with the failure of a field set or cleared under a key. -/
def noteIn (m : SortedMap (SortedMap Rejection)) (key field : String) :
    Option Rejection → SortedMap (SortedMap Rejection)
  | some r => m.insert key (((m.get? key).getD ∅).insert field r)
  | none =>
    match m.get? key with
    | none => m
    | some failures =>
      let rest := failures.erase field
      if rest.isEmpty then m.erase key else m.insert key rest

/-- The failures with the outcome of judging a field of a scope. -/
def note (f : Failures) (scope : Scope) (field : String) (outcome : Option Rejection) : Failures :=
  match scope with
  | .step id => { f with ofSteps := noteIn f.ofSteps id field outcome }
  | .record id => { f with ofRecords := noteIn f.ofRecords id field outcome }

/-- The failures without those of some records. -/
def forget (f : Failures) (records : List String) : Failures :=
  { f with ofRecords := records.foldl SortedMap.erase f.ofRecords }

end Failures

/-! ## Sessions -/

/-- A form being filled in. -/
structure Session where
  form : Form
  language : String
  /-- The position of the current step. -/
  step : Nat
  /-- For every step the page last shown. -/
  pages : List Nat
  /-- The ids of the visited steps. -/
  visited : SortedMap Unit
  /-- The committed answers. -/
  data : FormData
  /-- The answers not yet committed. -/
  draft : Values
  /-- The records being edited, innermost first. -/
  active : List ActiveRecord
  failures : Failures
deriving DecidableEq

namespace Session

/-- A session at the start of a form. A form without steps cannot be filled in. -/
def start (f : Form) : Except FormError Session :=
  match f.steps with
  | [] => .error .nothingToRender
  | first :: _ => .ok
    { form := f
      language := defaultLanguage
      step := 0
      pages := f.steps.map fun _ => 0
      visited := SortedMap.empty.insert first.id ()
      data := {}
      draft := ∅
      active := []
      failures := {} }

/-! ## Position -/

/-- The current step. -/
def currentStep (s : Session) : Step := s.form.steps.getD s.step {}

/-- The page last shown of a step. -/
def pageOf (s : Session) (step : Nat) : Nat := s.pages.getD step 0

/-- The position of the current page in its step. -/
def page (s : Session) : Nat := s.pageOf s.step

/-- The current page; none when the step has no pages. -/
def currentPage? (s : Session) : Option Page := s.currentStep.pages[s.page]?

/-- Whether the current page is the first of its step. -/
def isFirstPage (s : Session) : Bool := s.page = 0

/-- Whether the current page is the last of its step. -/
def isLastPage (s : Session) : Bool := s.page + 1 ≥ s.currentStep.pages.length

/-- Whether the current page is the last page of the last parent step, outside all records. -/
def isFinalPage (s : Session) : Bool :=
  s.active.isEmpty && s.isLastPage && s.form.parentIndices.getLast? = some s.step

/-- Whether a step was visited. -/
def isVisited (s : Session) (id : String) : Bool := s.visited.contains id

/-- The session at a page of a step, which counts as visited. -/
def enter (s : Session) (step page : Nat) : Session :=
  let id := (s.form.steps.getD step {}).id
  { s with step, pages := s.pages.set step page, visited := s.visited.insert id () }

/-! ## Scope -/

/-- Where answers go now. -/
def scope (s : Session) : Scope :=
  match s.active with
  | a :: _ => .record a.id
  | [] => .step s.currentStep.id

/-- The committed answers of a scope. -/
def committed? (s : Session) : Scope → Option Values
  | .step id => s.data.stepValues? id
  | .record id => (s.data.record? id).map (·.values)

/-- The value of a field in the active scope, from the draft if it is there. -/
def value? (s : Session) (field : String) : Option Answer :=
  (s.draft.get? field).or ((s.committed? s.scope).bind (·.get? field))

/-- The failure recorded for a field in the active scope. -/
def failure? (s : Session) (field : String) : Option Rejection :=
  (s.failures.within s.scope).get? field

/-- The records of a field in the active scope. -/
def records (s : Session) (field : String) : List ChildRecord :=
  s.data.recordsOf field (s.active.head?.map (·.id))

/-- The field of the current step with an id. -/
def field (s : Session) (id : String) : Except FormError Field :=
  match s.currentStep.field? id with
  | some f => .ok f
  | none => .error (.unknownField s.currentStep.id id)

/-- Records the outcome of judging a field in the active scope. -/
def note (s : Session) (field : String) (outcome : Option Rejection) : Session :=
  { s with failures := s.failures.note s.scope field outcome }

/-- The committed answers with a draft filed under a scope. -/
def file (d : FormData) (draft : Values) : Scope → FormData
  | .step id => { d with steps := d.steps.insert id (((d.steps.get? id).getD ∅).union draft) }
  | .record id => d.modifyRecord id fun r => { r with values := r.values.union draft }

/-- Files the draft under the active scope. -/
def commit (s : Session) : Session :=
  if s.draft.isEmpty then s
  else { s with draft := ∅, data := file s.data s.draft s.scope }

/-- The step to return to: that of the innermost record still being edited, else the first step
that references the current one, else the first step. -/
def returnStep (s : Session) : Nat :=
  let ofRecord := do
    let a ← s.active.head?
    let r ← s.data.record? a.id
    s.form.stepIndex? r.step
  (ofRecord.or (s.form.referencingIndex? s.currentStep.id)).getD 0

end Session
end Questionnaire
