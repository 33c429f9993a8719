import Questionnaire.Session.Actions

/-
  Runs of a session: actions one after another.
-/

namespace Questionnaire

/-- An action with its arguments; a record that is added comes with its fresh id. -/
inductive SessionAction
  | edit (field : String) (answer : Answer)
  | setLanguage (language : String)
  | save
  | next
  | previous
  | navigate (step page : Nat)
  | addRecord (field fresh : String)
  | openRecord (id : String)
  | deleteRecord (id : String)
  | finish
  | cancel
deriving DecidableEq, Repr

namespace Session

/-- The session after an attempt: the session itself when it failed. -/
def orSelf {α : Type} (s : Session) : Except FormError (α × Session) → Session
  | .ok (_, after) => after
  | .error _ => s

/-- The session after an action; an action that fails changes nothing. -/
def perform (s : Session) : SessionAction → Session
  | .edit field a => s.orSelf (s.edit field a)
  | .setLanguage language => s.setLanguage language
  | .save => s.save.2
  | .next => s.next.2
  | .previous => s.previous.2
  | .navigate step page => s.orSelf ((s.navigate step page).map ((), ·))
  | .addRecord field fresh => s.orSelf (s.addRecord field fresh)
  | .openRecord id => s.orSelf ((s.openRecord id).map ((), ·))
  | .deleteRecord id => s.orSelf (s.deleteRecord id)
  | .finish => s.finish.2
  | .cancel => s.cancel

/-- The session after a run of actions. -/
def run (s : Session) (actions : List SessionAction) : Session := actions.foldl perform s

/-- The error of an action, if it fails. -/
def error? (s : Session) : SessionAction → Option FormError
  | .edit field a => errorOf (s.edit field a)
  | .navigate step page => errorOf (s.navigate step page)
  | .addRecord field fresh => errorOf (s.addRecord field fresh)
  | .openRecord id => errorOf (s.openRecord id)
  | .deleteRecord id => errorOf (s.deleteRecord id)
  | _ => none
where
  /-- The error of an attempt. -/
  errorOf {α : Type} : Except FormError α → Option FormError
    | .ok _ => none
    | .error e => some e

/-! ## Warnings -/

/-- The warning of committing a draft whose record is gone. -/
def commitWarnings (s : Session) : List Warning :=
  match s.active with
  | a :: _ =>
    if !s.draft.isEmpty && (s.data.record? a.id).isNone then [.vanishedRecord a.id] else []
  | [] => []

/-- The warnings of saving the current page. -/
def saveWarnings (s : Session) : List Warning :=
  let after := s.commit
  let values := (after.committed? after.scope).getD ∅
  s.commitWarnings ++ ((after.currentPage?.map (·.fields)).getD []).flatMap fun f =>
    f.validationWarnings (values.get? f.id)

/-- The warnings of an action. -/
def warnings (s : Session) : SessionAction → List Warning
  | .edit field a =>
    ((s.currentStep.field? field).map fun f => f.validationWarnings (some a)).getD []
  | .save => s.saveWarnings
  | .finish => s.saveWarnings
  | .next => s.commitWarnings
  | .previous => s.commitWarnings
  | .navigate step page => if (s.error? (.navigate step page)).isNone then s.commitWarnings else []
  | .addRecord field fresh =>
    if (s.error? (.addRecord field fresh)).isNone then s.commitWarnings else []
  | .openRecord id => if (s.error? (.openRecord id)).isNone then s.commitWarnings else []
  | _ => []

end Session
end Questionnaire
