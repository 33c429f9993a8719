import Questionnaire.Answer.Check
import Questionnaire.Answer.Records
import Questionnaire.Form.Basic

/-
  Reviewing committed answers against a form.

  Parent steps are judged by their own answers, the other steps by every record that is filled in
  them. Answers of unknown fields and records of unknown steps are only warned about.
-/

namespace Questionnaire

/-- One rejected answer. -/
structure InvalidAnswer where
  step : String
  /-- The record that the answer belongs to, if it belongs to one. -/
  record : Option String
  field : String
  rejection : Rejection
deriving DecidableEq, Repr

/-- The rejected answers among the values of a step, or of a record of that step. -/
def Step.review (s : Step) (record : Option String) (values : Values) (language : String) :
    List InvalidAnswer :=
  s.fields.filterMap fun f =>
    (f.validate (values.get? f.id) language).map (⟨s.id, record, f.id, ·⟩)

/-- The warnings of reviewing values. -/
def Step.reviewWarnings (s : Step) (values : Values) : List Warning :=
  (values.keys.filter fun id => (s.field? id).isNone).map (.answerOfUnknownField · s.id) ++
    s.fields.flatMap fun f => f.validationWarnings (values.get? f.id)

namespace Form

/-- The values of a step; none entered is no values. -/
def valuesOf (d : FormData) (s : Step) : Values := (d.stepValues? s.id).getD ∅

/-- The rejected answers of the records. -/
def reviewRecord (f : Form) (language : String) (r : ChildRecord) : List InvalidAnswer :=
  match f.step? r.step with
  | some s => s.review (some r.id) r.values language
  | none => []

/-- All rejected answers: those of the parent steps, then those of the records. -/
def review (f : Form) (d : FormData) (language : String) : List InvalidAnswer :=
  (f.parents.flatMap fun s => s.review none (valuesOf d s) language) ++
    d.records.flatMap (f.reviewRecord language)

/-- The warnings of reviewing a record. -/
def recordWarnings (f : Form) (r : ChildRecord) : List Warning :=
  match f.step? r.step with
  | some s => s.reviewWarnings r.values
  | none => [.recordOfUnknownStep r.id r.step]

/-- The warnings of reviewing all answers. -/
def reviewWarnings (f : Form) (d : FormData) : List Warning :=
  (f.parents.flatMap fun s => s.reviewWarnings (valuesOf d s)) ++ d.records.flatMap f.recordWarnings

end Form
end Questionnaire
