import Questionnaire.Answer.Records
import Questionnaire.Form.Basic
import Questionnaire.Submission.Basic

/-
  Making the submission document from a form and its committed answers.

  The questions of all parent steps stand in order, and below a reference field stand the records
  that it owns: outside all records, or inside the record whose questions are being made. Records
  that no parent step leads to are left out. Every level of nesting belongs to another record, as
  long as records have different ids; when they have not, a record may come to stand inside
  itself, and then the document has no end.
-/

namespace Questionnaire

/-- What a document is made from. -/
structure Submission where
  form : Form
  data : FormData
  language : String

namespace Submission

/-- The records below a reference field, with the step that they are filled in. -/
def owned (s : Submission) (f : Field) (owner : Option String) : List (ChildRecord × Step) :=
  match f.referenceTarget? with
  | none => []
  | some target =>
    match s.form.step? target with
    | none => []
    | some step =>
      ((s.data.recordsOf f.id owner).filter (·.step = target)).map (·, step)

/-- The question of a field, with records nested up to `n` times below it; none when that is not
deep enough. -/
def question (s : Submission) : Nat → Option String → Values → Field → Option Question
  | 0, owner, values, f =>
    if (s.owned f owner).isEmpty then
      some (.mk f.id (f.displayLabel s.language) f.kind (values.get? f.id) [])
    else none
  | n + 1, owner, values, f => do
    let entries ← (s.owned f owner).mapM fun (r, step) =>
      (step.fields.mapM (s.question n (some r.id) r.values)).map (.mk r.id r.step)
    return .mk f.id (f.displayLabel s.language) f.kind (values.get? f.id) entries

/-- The questions of a parent step. -/
def ofStep (s : Submission) (step : Step) : Option (List Question) :=
  step.fields.mapM
    (s.question s.data.records.length none ((s.data.stepValues? step.id).getD ∅))

/-- The questions of all parent steps; none when the document has no end. -/
def questions? (s : Submission) : Option (List Question) :=
  (s.form.parents.mapM s.ofStep).map List.flatten

end Submission
end Questionnaire
