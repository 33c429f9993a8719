import Questionnaire.Session.Run

/-
  Actions as work on one session.

  An action that can fail looks things up, writes to the session and may find out only then that it
  fails; what it has written by that time stays written. Here the actions are spelled out as such
  attempts, look-up by look-up and write by write. The functions of `Session.Actions` give no
  session at all when they fail, so they cannot leave anything half done; an attempt could.
-/

namespace Questionnaire

/-- Work on a session that may fail; what was written before stays written. -/
abbrev Attempt (α : Type) := ExceptT FormError (StateM Session) α

namespace Attempt

/-- What an attempt gives, or its error, and the session as the attempt leaves it. -/
def on {α : Type} (t : Attempt α) (s : Session) : Except FormError α × Session := t.run.run s

/-- A value that has to be there. -/
def require {α : Type} (value : Option α) (e : FormError) : Attempt α :=
  match value with
  | some a => pure a
  | none => throw e

/-- The field of the current step with an id. -/
def field (id : String) : Attempt Field := do
  let s ← get
  require (s.currentStep.field? id) (.unknownField s.currentStep.id id)

/-- The position of the first step with an id. -/
def stepIndex (id : String) : Attempt Nat := do
  require ((← get).form.stepIndex? id) (.unknownStep id)

/-- The record with an id. -/
def record (id : String) : Attempt ChildRecord := do
  require ((← get).data.record? id) (.unknownChild id)

/-- Enters a value into the draft and judges it. -/
def edit (id : String) (a : Answer) : Attempt (Option Rejection) := do
  let f ← field id
  let outcome := f.validate (some a) (← get).language
  modify fun s => s.note id outcome
  modify fun s => { s with draft := s.draft.insert id a }
  return outcome

/-- Goes to a page of a step. -/
def navigate (step page : Nat) : Attempt Unit := do
  let form := (← get).form
  let target ← require form.steps[step]? (.stepOutOfRange step form.steps.length)
  modify Session.commit
  modify fun s => if step ≠ s.step then { s with active := [] } else s
  modify fun s => s.enter step (min page (target.pages.length - 1))

/-- Makes a record of a reference field and begins to edit it. The record is given as it is found
among the answers afterwards. -/
def addRecord (id fresh : String) : Attempt ChildRecord := do
  let target ← require (← field id).referenceTarget? (.notAReference id)
  let step ← stepIndex target
  modify Session.commit
  let owner := (← get).active.head?.map (·.id)
  modify fun s => { s with
    data := s.data.addRecord { id := fresh, field := id, owner, step := target } }
  modify fun s => { s with active := ⟨fresh, id, true⟩ :: s.active }
  modify fun s => s.enter step 0
  record fresh

/-- Begins to edit a record again. -/
def openRecord (id : String) : Attempt Unit := do
  let r ← record id
  let step ← stepIndex r.step
  modify Session.commit
  modify fun s => { s with active := ⟨id, r.field, false⟩ :: s.active }
  modify fun s => s.enter step 0

/-- Removes a record and those nested in it. Only after the removal it is checked whether there was
anything to remove. -/
def deleteRecord (id : String) : Attempt ChildRecord := do
  let removed := (← get).data.removed id
  modify fun s => { s with data := s.data.removeRecord id }
  let first ← require removed.head? (.unknownChild id)
  let ids := removed.map (·.id)
  modify fun s => { s with failures := s.failures.forget ids }
  modify fun s =>
    if s.active.any fun a => ids.contains a.id then
      let s := { s with active := Session.keptActive s.active ids, draft := ∅ }
      s.enter s.returnStep (s.pageOf s.returnStep)
    else s
  return first

/-- An attempt without its result. -/
def silent {α : Type} (t : Attempt α) : Attempt Unit := do
  let _ ← t
  return ()

/-- An action as an attempt. -/
def ofAction : SessionAction → Attempt Unit
  | .edit id a => (edit id a).silent
  | .setLanguage language => modify fun s => s.setLanguage language
  | .save => modify fun s => s.save.2
  | .next => modify fun s => s.next.2
  | .previous => modify fun s => s.previous.2
  | .navigate step page => navigate step page
  | .addRecord id fresh => (addRecord id fresh).silent
  | .openRecord id => openRecord id
  | .deleteRecord id => (deleteRecord id).silent
  | .finish => modify fun s => s.finish.2
  | .cancel => modify Session.cancel

end Attempt
end Questionnaire
