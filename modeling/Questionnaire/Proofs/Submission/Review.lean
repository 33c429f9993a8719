import Questionnaire.Proofs.Submission.Placement
import Questionnaire.Review

/-
  The review of answers and the submission document judge the same answers.

  The review walks the parent steps and then all records, the document nests records below the
  fields that own them. What a question shows comes from a parent step or from a record (`Source`),
  and the review looks at both in the same way (`mem_review_of_source`); so a question with a
  rejected answer is among those that the review lists (`review_covers`).
-/

namespace Questionnaire

/-! ## What a review lists -/

theorem Step.mem_review {t : Step} {record : Option String} {values : Values} {language : String}
    {f : Field} (hf : f ∈ t.fields) {e : Rejection}
    (he : f.validate (values.get? f.id) language = some e) :
    ⟨t.id, record, f.id, e⟩ ∈ t.review record values language :=
  List.mem_filterMap.2 ⟨f, hf, by rw [he]; rfl⟩

namespace Submission

variable {s : Submission} {f : Field} {owner : Option String} {values : Values}

/-- The rejected answers of the document. -/
abbrev review (s : Submission) : List InvalidAnswer := s.form.review s.data s.language

/-- A review lists the rejected answers of every parent step, and of every record that a parent step
leads to. -/
theorem mem_review_of_source {t : Step} (hsource : s.Source owner t values) (hf : f ∈ t.fields)
    {e : Rejection} (he : f.validate (values.get? f.id) s.language = some e) :
    ⟨t.id, owner, f.id, e⟩ ∈ s.review := by
  cases hsource with
  | step ht =>
    refine List.mem_append_left _ (List.mem_flatMap.2 ⟨t, ht, ?_⟩)
    exact Step.mem_review hf he
  | @record r t hr ht =>
    refine List.mem_append_right _ (List.mem_flatMap.2 ⟨r, hr.mem, ?_⟩)
    rw [Form.reviewRecord, ht]
    exact Step.mem_review hf he

/-- While records differ in their ids, every question of a document, at any depth, shows a field of
a parent step or of a record's step, with the answer that is held for it; if that answer is
rejected, then the review lists it with the step, the record, the field and the reason. So all
answers of a document are valid when the review lists none. -/
theorem review_covers (s : Submission) (hd : (s.data.records.map (·.id)).Nodup) :
    ∃ questions, s.questions? = some questions ∧
      (∀ owner q, Asks questions owner q ↔ ∃ t f, Shows s.form questions owner t f q) ∧
      (∀ owner t f q, Shows s.form questions owner t f q →
        (∃ values, s.Source owner t values ∧ f ∈ t.fields ∧
          q.face = f.face s.language values) ∧
        ∀ e, f.validate q.answer s.language = some e → ⟨t.id, owner, f.id, e⟩ ∈ s.review) ∧
      (s.review = [] → ∀ owner t f q, Shows s.form questions owner t f q →
        f.validate q.answer s.language = none) := by
  obtain ⟨questions, h⟩ := exists_questions? hd
  have hlisted : ∀ owner t f q, Shows s.form questions owner t f q →
      ∀ e, f.validate q.answer s.language = some e → ⟨t.id, owner, f.id, e⟩ ∈ s.review := by
    intro owner t f q hq e he
    obtain ⟨hf, n, values, hsource, hmake⟩ := made_of_shows h hq
    have hanswer : q.answer = values.get? f.id := (question_spec hmake).2.1
    exact mem_review_of_source hsource hf (hanswer ▸ he)
  refine ⟨questions, h, fun owner q => ⟨exists_shows h, fun ⟨t, f, hq⟩ => hq.asks⟩,
    fun owner t f q hq => ⟨?_, ?_⟩, ?_⟩
  · obtain ⟨hf, n, values, hsource, hmake⟩ := made_of_shows h hq
    exact ⟨values, hsource, hf, face_of_question hmake⟩
  · exact hlisted owner t f q hq
  · intro hnone owner t f q hq
    refine Option.eq_none_iff_forall_ne_some.2 fun e he => ?_
    have hmem := hlisted owner t f q hq e he
    rw [hnone] at hmem
    cases hmem

/-! ## A missing name -/

/-- A step for works, whose authors are persons. -/
def workStep : Step where
  id := "work"
  pages := [{ sections := [{ fields := [
    { id := "author", kind := .reference, target := some "person" }] }] }]

/-- A step for persons, who must have a name. -/
def personStep : Step where
  id := "person"
  pages := [{ sections := [{ fields := [
    { id := "name", rules := { conformance := .mandatory } }] }] }]

/-- An author without a name. -/
def nameless : Submission where
  form := { steps := [workStep, personStep] }
  data := { records := [{ id := "a", field := "author", step := "person" }] }
  language := "eng"

/-- The document that asks for the name. -/
def namelessQuestions : List Question :=
  [.mk "author" "author" .reference none [.mk "a" "person" [.mk "name" "name" .textarea none []]]]

theorem questions_nameless : nameless.questions? = some namelessQuestions := rfl

/-- The missing name is asked for in the author's entry, and listed. -/
theorem review_covers_nameless : (nameless.data.records.map (·.id)).Nodup ∧
    ∃ questions f q, nameless.questions? = some questions ∧
      Shows nameless.form questions (some "a") personStep f q ∧
      f.validate q.answer "eng" = some .required ∧
      ⟨"person", some "a", "name", .required⟩ ∈ nameless.review := by
  have hd : (nameless.data.records.map (·.id)).Nodup := by decide
  obtain ⟨questions, h, -, hshows, -⟩ := review_covers nameless hd
  obtain rfl := Option.some.inj (questions_nameless.symm.trans h)
  have hauthor : Shows nameless.form namelessQuestions none workStep
      { id := "author", kind := .reference, target := some "person" }
      (.mk "author" "author" .reference none
        [.mk "a" "person" [.mk "name" "name" .textarea none []]]) :=
    .top List.mem_cons_self
  have hname : Shows nameless.form namelessQuestions (some "a") personStep
      { id := "name", rules := { conformance := .mandatory } }
      (.mk "name" "name" .textarea none []) :=
    .inner hauthor List.mem_cons_self rfl List.mem_cons_self
  exact ⟨hd, _, _, _, h, hname, rfl, (hshows _ _ _ _ hname).2 _ rfl⟩

end Submission
end Questionnaire
