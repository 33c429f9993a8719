import Questionnaire.Session.Basic

/-
  What a user can do in a session.

  Every action takes effect as a whole: one that fails leaves the session as it was. Moving
  between pages and into or out of records commits the draft first, so that no value is filed
  under another scope than the one it was entered in.
-/

namespace Questionnaire.Session

/-! ## Editing and saving -/

/-- Chooses the language of labels and options. -/
def setLanguage (s : Session) (language : String) : Session := { s with language }

/-- Enters a value into the draft and judges it; a rejected value is kept. -/
def edit (s : Session) (field : String) (a : Answer) :
    Except FormError (Option Rejection × Session) := do
  let f ← s.field field
  let outcome := f.validate (some a) s.language
  return (outcome, { s.note field outcome with draft := s.draft.insert field a })

/-- The outcomes of judging the committed values of the current page. -/
def pageOutcomes (s : Session) : List (String × Option Rejection) :=
  let values := (s.committed? s.scope).getD ∅
  ((s.currentPage?.map (·.fields)).getD []).map fun f =>
    (f.id, f.validate (values.get? f.id) s.language)

/-- Commits the draft and judges the current page; gives its failures. -/
def save (s : Session) : List (String × Rejection) × Session :=
  let s := s.commit
  let outcomes := s.pageOutcomes
  (outcomes.filterMap fun o => o.2.map (o.1, ·), outcomes.foldl (fun s o => s.note o.1 o.2) s)

/-! ## Moving between pages -/

/-- Whether the user may move on to other steps. -/
def mayLeave (s : Session) : Bool := s.active.isEmpty && s.form.isParent s.step

/-- Moves to the next page, or from the last page of a parent step to the next parent step;
tells whether there was one. -/
def next (s : Session) : Bool × Session :=
  let s := s.commit
  if !s.isLastPage then (true, { s with pages := s.pages.set s.step (s.page + 1) })
  else if !s.mayLeave then (false, s)
  else match s.form.parentIndices.find? (s.step < ·) with
    | some step => (true, s.enter step 0)
    | none => (false, s)

/-- The position of a step's last page. -/
def lastPageOf (s : Session) (step : Nat) : Nat := (s.form.steps.getD step {}).pages.length - 1

/-- Moves to the previous page, or from the first page of a parent step to the last page of the
previous parent step; tells whether there was one. -/
def previous (s : Session) : Bool × Session :=
  let s := s.commit
  if !s.isFirstPage then (true, { s with pages := s.pages.set s.step (s.page - 1) })
  else if !s.mayLeave then (false, s)
  else match s.form.parentIndices.reverse.find? (· < s.step) with
    | some step => (true, s.enter step (s.lastPageOf step))
    | none => (false, s)

/-- Goes to a page of a step; a page beyond the last is the last. Going to another step ends the
editing of records. -/
def navigate (s : Session) (step page : Nat) : Except FormError Session := do
  let _ ← s.form.stepAt step
  let s := s.commit
  let s := if step ≠ s.step then { s with active := [] } else s
  return s.enter step (min page (s.lastPageOf step))

/-! ## Records -/

/-- Makes a record of a reference field, under a fresh id, and begins to edit it. -/
def addRecord (s : Session) (field fresh : String) : Except FormError (ChildRecord × Session) := do
  let f ← s.field field
  let target ← match f.referenceTarget? with
    | some target => .ok target
    | none => .error (.notAReference field)
  let step ← match s.form.stepIndex? target with
    | some step => .ok step
    | none => .error (.unknownStep target)
  let s := s.commit
  let r : ChildRecord := { id := fresh, field, owner := s.active.head?.map (·.id), step := target }
  let s := { s with
    data := s.data.addRecord r
    active := ⟨fresh, field, true⟩ :: s.active }
  return (r, s.enter step 0)

/-- Begins to edit a record again. -/
def openRecord (s : Session) (id : String) : Except FormError Session := do
  let r ← match s.data.record? id with
    | some r => .ok r
    | none => .error (.unknownChild id)
  let step ← match s.form.stepIndex? r.step with
    | some step => .ok step
    | none => .error (.unknownStep r.step)
  let s := s.commit
  return { s with active := ⟨id, r.field, false⟩ :: s.active }.enter step 0

/-- The records being edited that stay so when some are removed: those outside the outermost
removed one. -/
def keptActive (active : List ActiveRecord) (removed : List String) : List ActiveRecord :=
  (active.reverse.takeWhile fun a => !removed.contains a.id).reverse

/-- Removes a record and those nested in it, and gives the record itself. If one of them was being
edited, that edit ends, the draft is dropped and the user returns to the step around it. -/
def deleteRecord (s : Session) (id : String) : Except FormError (ChildRecord × Session) :=
  match s.data.removed id with
  | [] => .error (.unknownChild id)
  | first :: more =>
    let removed := (first :: more).map (·.id)
    let s := { s with data := s.data.removeRecord id, failures := s.failures.forget removed }
    if s.active.any fun a => removed.contains a.id then
      let s := { s with active := keptActive s.active removed, draft := ∅ }
      .ok (first, s.enter s.returnStep (s.pageOf s.returnStep))
    else .ok (first, s)

/-- Saves the page, ends the innermost edit and returns to the step around it. A child step that
is left no longer counts as visited. -/
def finish (s : Session) : List (String × Rejection) × Session :=
  let (failures, s) := s.save
  let s := if s.form.isParent s.step then s
    else { s with visited := s.visited.erase s.currentStep.id }
  let s := { s with active := s.active.tail }
  (failures, s.enter s.returnStep (s.pageOf s.returnStep))

/-- The answers without the records whose making is still going on, outermost first. -/
def rollBack (d : FormData) (active : List ActiveRecord) : FormData :=
  active.foldr (fun a d => if a.created then d.removeRecord a.id else d) d

/-- Drops the draft and the records being made, and returns to the start of the form. -/
def cancel (s : Session) : Session :=
  { s with
    draft := ∅
    data := rollBack s.data s.active
    active := []
    failures := {} }.enter 0 0

end Questionnaire.Session
