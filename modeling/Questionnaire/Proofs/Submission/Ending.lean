import Mathlib
import Questionnaire.Proofs.Submission.Document

/-
  When a submission document has an end.

  Records may repeat an id, and then one may come to stand inside itself. A document has an end, with
  however many levels of nesting, exactly when no record that a parent step leads to does, and as many
  levels as there are records are enough (`ends_iff`).

  If no record stands inside itself, there is an end (`exists_questions?_of_founded`). For the other
  direction a record that was made with some number of levels below it is taken, and the records
  inside it are followed, each of which has fewer (`exists_makes_of_nests`).
-/

namespace Questionnaire

open Relation

/-! ## Levels of nesting -/

mutual

/-- How many levels of entries stand below a question. -/
def Question.levels : Question → Nat
  | .mk _ _ _ _ entries => RecordEntry.levelsOf entries

/-- How many levels a list of entries has, their own among them. -/
def RecordEntry.levelsOf : List RecordEntry → Nat
  | [] => 0
  | .mk _ _ questions :: entries =>
    max (Question.levelsOf questions + 1) (RecordEntry.levelsOf entries)

/-- How many levels of entries stand below questions. -/
def Question.levelsOf : List Question → Nat
  | [] => 0
  | q :: questions => max q.levels (Question.levelsOf questions)

end

theorem Question.levelsOf_le_iff {questions : List Question} {n : Nat} :
    Question.levelsOf questions ≤ n ↔ ∀ q ∈ questions, q.levels ≤ n := by
  induction questions with
  | nil => simp [Question.levelsOf]
  | cons q questions ih => simp [Question.levelsOf, ih]

theorem RecordEntry.levelsOf_le_iff {entries : List RecordEntry} {n : Nat} :
    RecordEntry.levelsOf entries ≤ n ↔ ∀ e ∈ entries, Question.levelsOf e.questions + 1 ≤ n := by
  induction entries with
  | nil => simp [RecordEntry.levelsOf]
  | cons e entries ih =>
    obtain ⟨id, step, questions⟩ := e
    rw [RecordEntry.levelsOf, Nat.max_le, ih, List.forall_mem_cons]
    rfl

namespace Submission

variable {s : Submission} {f : Field} {owner : Option String} {n : Nat} {values : Values}

/-! ## Making questions with more or fewer levels -/

/-- The questions of all parent steps, with records nested up to `n` times below them. -/
def questionsUpTo (s : Submission) (n : Nat) : Option (List Question) :=
  (s.form.parents.mapM fun (t : Step) =>
    t.fields.mapM (s.question n none ((s.data.stepValues? t.id).getD ∅))).map List.flatten

/-- More levels change nothing. -/
theorem question_succ {q : Question} (h : s.question n owner values f = some q) :
    s.question (n + 1) owner values f = some q := by
  induction n generalizing owner values f q with
  | zero =>
    obtain ⟨hempty, rfl⟩ := question_zero_eq_some.1 h
    exact question_succ_eq_some.2 ⟨[], by rw [hempty]; rfl, rfl⟩
  | succ n ih =>
    obtain ⟨entries, hentries, rfl⟩ := question_succ_eq_some.1 h
    refine question_succ_eq_some.2 ⟨entries, mapM_of_imp (fun rt e he => ?_) hentries, rfl⟩
    obtain ⟨questions, hquestions, rfl⟩ := Option.map_eq_some_iff.1 he
    exact Option.map_eq_some_iff.2 ⟨questions, mapM_of_imp (fun g p => ih) hquestions, rfl⟩

theorem questionsUpTo_succ {questions : List Question} (h : s.questionsUpTo n = some questions) :
    s.questionsUpTo (n + 1) = some questions := by
  obtain ⟨parts, hparts, rfl⟩ := Option.map_eq_some_iff.1 h
  refine Option.map_eq_some_iff.2 ⟨parts, mapM_of_imp (fun t part => ?_) hparts, rfl⟩
  exact mapM_of_imp fun g p => question_succ

theorem questionsUpTo_of_le {questions : List Question} {m : Nat}
    (h : s.questionsUpTo n = some questions) (hle : n ≤ m) :
    s.questionsUpTo m = some questions := by
  induction hle with
  | refl => exact h
  | step _ ih => exact questionsUpTo_succ ih

theorem questionsUpTo_unique {questions questions' : List Question} {m : Nat}
    (h : s.questionsUpTo n = some questions) (h' : s.questionsUpTo m = some questions') :
    questions = questions' := by
  have hmax := questionsUpTo_of_le h (Nat.le_max_left n m)
  rw [questionsUpTo_of_le h' (Nat.le_max_right n m)] at hmax
  exact (Option.some.inj hmax).symm

theorem levels_le {q : Question} (h : s.question n owner values f = some q) : q.levels ≤ n := by
  induction n generalizing owner values f q with
  | zero =>
    obtain ⟨-, rfl⟩ := question_zero_eq_some.1 h
    simp [Question.levels, RecordEntry.levelsOf]
  | succ n ih =>
    obtain ⟨entries, hentries, rfl⟩ := question_succ_eq_some.1 h
    refine RecordEntry.levelsOf_le_iff.2 fun e he => ?_
    obtain ⟨rt, -, hmake⟩ := exists_source_of_mapM hentries he
    obtain ⟨questions, hquestions, rfl⟩ := Option.map_eq_some_iff.1 hmake
    refine Nat.succ_le_succ (Question.levelsOf_le_iff.2 fun p hp => ?_)
    obtain ⟨g, -, hg⟩ := exists_source_of_mapM hquestions hp
    exact ih hg

theorem levels_le_of_mem {questions : List Question} (h : s.questionsUpTo n = some questions)
    {q : Question} (hq : q ∈ questions) : q.levels ≤ n := by
  obtain ⟨parts, hparts, rfl⟩ := Option.map_eq_some_iff.1 h
  obtain ⟨part, hpart, hq⟩ := List.mem_flatten.1 hq
  obtain ⟨t, -, ht⟩ := exists_source_of_mapM hparts hpart
  obtain ⟨f, -, hf⟩ := exists_source_of_mapM ht hq
  exact levels_le hf

/-! ## From an end to no record inside itself -/

/-- The entry of a record can be made, with records nested up to `n` times below it. -/
def Makes (s : Submission) (n : Nat) (r : ChildRecord) : Prop :=
  ∃ t e, s.form.step? r.step = some t ∧ s.entry n (r, t) = some e

/-- The records below a question have fewer levels. -/
theorem exists_makes_of_question {q : Question} (h : s.question n owner values f = some q)
    {r : ChildRecord} {t : Step} (hr : (r, t) ∈ s.owned f owner) : ∃ m < n, s.Makes m r := by
  cases n with
  | zero =>
    rw [(question_zero_eq_some.1 h).1] at hr
    cases hr
  | succ n =>
    obtain ⟨entries, hentries, -⟩ := question_succ_eq_some.1 h
    obtain ⟨e, -, he⟩ := exists_mem_of_mapM hentries hr
    exact ⟨n, Nat.lt_succ_self n, t, e, (mem_owned.1 hr).2.1, he⟩

theorem exists_makes_of_nests {o r : ChildRecord} (ho : s.Makes n o)
    (h : s.data.Nests s.form o r) : ∃ m < n, s.Makes m r := by
  obtain ⟨hr, ⟨u, hu⟩, howner, t, ht, f, hf, hid, htarget⟩ := h
  obtain ⟨t', e, ht', he⟩ := ho
  rw [ht] at ht'
  cases ht'
  obtain ⟨questions, hquestions, -⟩ := Option.map_eq_some_iff.1 he
  obtain ⟨q, -, hq⟩ := exists_mem_of_mapM hquestions hf
  exact exists_makes_of_question hq (mem_owned.2 ⟨htarget, hu, hr, hid.symm, howner⟩)

theorem exists_makes_of_transGen {o r : ChildRecord} (ho : s.Makes n o)
    (h : TransGen (s.data.Nests s.form) o r) : ∃ m < n, s.Makes m r := by
  induction h with
  | single h => exact exists_makes_of_nests ho h
  | tail _ h ih =>
    obtain ⟨m, hm, hmake⟩ := ih
    obtain ⟨k, hk, hmake⟩ := exists_makes_of_nests hmake h
    exact ⟨k, Nat.lt_trans hk hm, hmake⟩

theorem not_makes_of_transGen {r : ChildRecord} (h : TransGen (s.data.Nests s.form) r r) (n : Nat) :
    ¬ s.Makes n r := by
  induction n using Nat.strong_induction_on with
  | _ n ih =>
    intro hmake
    obtain ⟨m, hm, hmake⟩ := exists_makes_of_transGen hmake h
    exact ih m hm hmake

theorem exists_makes_of_anchored {questions : List Question}
    (h : s.questionsUpTo n = some questions) {r : ChildRecord} (hr : s.data.Anchored s.form r) :
    ∃ m, s.Makes m r := by
  induction hr with
  | @free r t u hr hstep howner ht hoffers =>
    obtain ⟨f, hf, hid, htarget⟩ := hoffers
    obtain ⟨parts, hparts, -⟩ := Option.map_eq_some_iff.1 h
    obtain ⟨part, -, hpart⟩ := exists_mem_of_mapM hparts ht
    obtain ⟨q, -, hq⟩ := exists_mem_of_mapM hpart hf
    obtain ⟨m, -, hmake⟩ :=
      exists_makes_of_question hq (mem_owned.2 ⟨htarget, hstep, hr, hid.symm, howner⟩)
    exact ⟨m, hmake⟩
  | @owned o r t u _ hr hstep howner ht hoffers ih =>
    obtain ⟨m, hmake⟩ := ih
    obtain ⟨k, -, hmake⟩ :=
      exists_makes_of_nests hmake ⟨hr, ⟨u, hstep⟩, howner, t, ht, hoffers⟩
    exact ⟨k, hmake⟩

theorem founded_of_questionsUpTo {questions : List Question}
    (h : s.questionsUpTo n = some questions) : s.data.Founded s.form := by
  intro r hr hinside
  obtain ⟨m, hmake⟩ := exists_makes_of_anchored h hr
  exact not_makes_of_transGen hinside m hmake

/-! ## When there is an end -/

/-- A document has an end, at whatever depth, exactly when no record that a parent step leads to
stands inside itself. As many levels as there are records are then enough, and more change nothing.
No record stands inside itself while records differ in their ids. -/
theorem ends_iff (s : Submission) :
    ((∃ n questions, s.questionsUpTo n = some questions) ↔ s.data.Founded s.form) ∧
      ((∃ questions, s.questions? = some questions) ↔ s.data.Founded s.form) ∧
      (∀ n questions, s.questionsUpTo n = some questions →
        s.questions? = some questions ∧ Question.levelsOf questions ≤ s.data.records.length) ∧
      ((s.data.records.map (·.id)).Nodup → s.data.Founded s.form) := by
  have hends : s.data.Founded s.form → ∃ questions, s.questions? = some questions :=
    exists_questions?_of_founded
  refine ⟨⟨?_, ?_⟩, ⟨?_, hends⟩, ?_,
    FormData.founded_of_nodup⟩
  · rintro ⟨n, questions, h⟩
    exact founded_of_questionsUpTo h
  · intro hd
    exact ⟨s.data.records.length, hends hd⟩
  · rintro ⟨questions, h⟩
    exact founded_of_questionsUpTo (n := s.data.records.length) h
  · intro n questions h
    obtain ⟨questions', h'⟩ := hends (founded_of_questionsUpTo h)
    obtain rfl : questions = questions' := questionsUpTo_unique h h'
    exact ⟨h', Question.levelsOf_le_iff.2 fun q hq => levels_le_of_mem h' hq⟩

/-! ## Two records of one id -/

/-- Two authors of one id. -/
def siblings : FormData where
  records := [
    { id := "a", field := "author", step := "person" },
    { id := "a", field := "author", step := "person"
      values := SortedMap.empty.insert "name" (.text "Ada") }]

theorem questions_siblings :
    (Submission.mk Session.nestedForm siblings "eng").questions?.isSome := by cbv

/-- A repeated id alone puts no record inside itself. -/
theorem ends_iff_siblings : ¬ (siblings.records.map (·.id)).Nodup ∧
    (∃ questions, (Submission.mk Session.nestedForm siblings "eng").questions? = some questions ∧
      Question.levelsOf questions ≤ 2) ∧
    siblings.Founded Session.nestedForm := by
  obtain ⟨questions, hquestions⟩ := Option.isSome_iff_exists.1 questions_siblings
  obtain ⟨-, hfounded, hlevels, -⟩ := ends_iff (Submission.mk Session.nestedForm siblings "eng")
  exact ⟨by decide, ⟨questions, hquestions, (hlevels 2 questions hquestions).2⟩,
    hfounded.1 ⟨questions, hquestions⟩⟩

/-- A package whose works lead to persons, and persons to their friends. -/
def friendPackage : Package where
  bundle := {
    main := { captureBase := {
      digest := "work", attributes := [("title", .text "Text"), ("author", .text "refs:person")] } }
    dependencies := [
      { captureBase := {
        digest := "person"
        attributes := [("name", .text "Text"), ("friend", .text "refs:person")] } }] }
  presentations := [
    { captureBase := "work"
      interactions := [SortedMap.empty.insert "author" { kind := some (.name "reference") }] },
    { captureBase := "person"
      interactions := [SortedMap.empty.insert "friend" { kind := some (.name "reference") }] }]

/-- An answers document in which a friend has the id of the person it belongs to. -/
def namesakeAnswers : String :=
  "\x7b\"children\":[" ++
    "\x7b\"id\":\"a\",\"parent_field_id\":\"author\",\"step_id\":\"person\"\x7d," ++
    "\x7b\"id\":\"a\",\"parent_field_id\":\"friend\",\"parent_record_id\":\"a\"," ++
    "\"step_id\":\"person\"\x7d]\x7d"

/-- A friend with the id of the person it belongs to. -/
def namesakes : FormData where
  records := [
    { id := "a", field := "author", step := "person" },
    { id := "a", field := "friend", owner := some "a", step := "person" }]

theorem decode_namesakeAnswers :
    (FormData.decoder.fromText namesakeAnswers).outcome.toOption = some namesakes := by
  decide +kernel

theorem author_friendPackage :
    ∃ t ∈ (Form.compile friendPackage).parents, t.Offers "author" "person" := by
  have h : (Form.compile friendPackage).parents.any (·.Offers "author" "person") := by cbv
  simpa using h

theorem friend_friendPackage :
    ∃ t, (Form.compile friendPackage).step? "person" = some t ∧ t.Offers "friend" "person" := by
  have h : ((Form.compile friendPackage).step? "person").any (·.Offers "friend" "person") := by cbv
  simpa [Option.any_eq_true] using h

theorem not_founded_namesakes : ¬ namesakes.Founded (Form.compile friendPackage) := by
  obtain ⟨t, ht, hauthor⟩ := author_friendPackage
  obtain ⟨u, hu, hfriend⟩ := friend_friendPackage
  let person : ChildRecord := { id := "a", field := "author", step := "person" }
  let friend : ChildRecord := { id := "a", field := "friend", owner := some "a", step := "person" }
  have hperson : namesakes.Anchored (Form.compile friendPackage) person :=
    .free (by simp [namesakes, person]) hu rfl ht hauthor
  -- By its id the friend belongs to the person, and as well to itself.
  have hnests (o : ChildRecord) (hid : o.id = "a") (hstep : o.step = "person") :
      namesakes.Nests (Form.compile friendPackage) o friend :=
    ⟨by simp [namesakes, friend], ⟨u, hu⟩, by rw [hid], u, by rw [hstep]; exact hu, hfriend⟩
  intro h
  exact h friend (hperson.nested (hnests person rfl rfl)) (.single (hnests friend rfl rfl))

/-- The document of a record that has the id of its owner has no end. -/
theorem namesake_never_ends :
    ∃ d, (FormData.decoder.fromText namesakeAnswers).outcome.toOption = some d ∧
      ∀ language n,
        (Submission.mk (Form.compile friendPackage) d language).questionsUpTo n = none := by
  refine ⟨namesakes, decode_namesakeAnswers, fun language n => ?_⟩
  refine Option.eq_none_iff_forall_ne_some.2 fun questions h => ?_
  exact not_founded_namesakes (founded_of_questionsUpTo h)

end Submission
end Questionnaire
