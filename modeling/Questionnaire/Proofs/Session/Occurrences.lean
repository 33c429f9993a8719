import Questionnaire.Proofs.Session.Submission
import Questionnaire.Proofs.Submission.Occurrences

/-
  How often the records of a session come into its submission.

  Below one question a record has at most one entry. But a field that stands on several pages is
  asked for as often, and two parent steps may each have a field that offers the same records: then a
  record is submitted more than once (`author_submitted_twice`). `occurrences_run` says how often for
  every record of every run, and that no record comes in twice when no two fields offer the same.
-/

namespace Questionnaire.Session

/-- Where a record belongs, and how often the submission of a session has an entry for it: for a
record outside others as often as fields of parent steps offer it, for one inside another as often
as fields of its owner's step do, for each entry of the owner. -/
def OccursAsOffered (s : Session) (questions : List Question) (r : ChildRecord) : Prop :=
  (r.owner = none ∧
      occurrences questions r.id = r.timesOffered (s.form.parents.flatMap (·.fields))) ∨
    ∃ o ∈ s.data.records, ∃ t, r.owner = some o.id ∧ s.form.step? o.step = some t ∧
      occurrences questions r.id = occurrences questions o.id * r.timesOffered t.fields

theorem exists_submitted {s : Session} (hs : s.Sound) (language : String) :
    ∃ questions, (s.submission language).questions? = some questions :=
  Submission.exists_questions? hs.data.distinct

theorem occurrences_of_free {s : Session} (hs : s.Sound) {language : String}
    {questions : List Question} (h : (s.submission language).questions? = some questions)
    {r : ChildRecord} (hr : r ∈ s.data.records) (howner : r.owner = none) :
    occurrences questions r.id = r.timesOffered (s.form.parents.flatMap (·.fields)) := by
  obtain ⟨u, hu⟩ := hs.data.known r hr
  exact Submission.occurrences_free hs.data.distinct hr hu h howner

theorem occursAsOffered {s : Session} (hs : s.Sound) {language : String}
    {questions : List Question} (h : (s.submission language).questions? = some questions)
    {r : ChildRecord} (hr : r ∈ s.data.records) : s.OccursAsOffered questions r := by
  cases howner : r.owner with
  | none => exact .inl ⟨howner, occurrences_of_free hs h hr howner⟩
  | some p =>
    obtain ⟨u, hu⟩ := hs.data.known r hr
    obtain ⟨before, after, hsplit⟩ := List.append_of_mem hr
    obtain ⟨o, ho, rfl, t, ht, -⟩ := hs.data.owned before r after hsplit p howner
    have hmem : o ∈ s.data.records := by
      rw [hsplit]
      exact List.mem_append_left _ ho
    exact .inr ⟨o, hmem, t, howner, ht,
      Submission.occurrences_owned hs.data.distinct hr hu h hmem howner ht⟩

/-- In the submission of a run, in every language, a record has at most one entry below one
question, and counting all depths as many entries as it is offered. When neither the parent steps
together nor any step by itself have two fields of one id that lead to the same step, no record has
two entries. -/
theorem occurrences_run {p : Package} (hsteps : (Form.compile p).steps ≠ []) :
    ∃ s₀, start (Form.compile p) = .ok s₀ ∧ ∀ actions, s₀.FreshRun actions → ∀ language,
      (s₀.run actions).form = Form.compile p ∧
      ∃ questions, ((s₀.run actions).submission language).questions? = some questions ∧
        (∀ owner q, Asks questions owner q → (q.entries.map (·.id)).Nodup) ∧
        (∀ r ∈ (s₀.run actions).data.records, (s₀.run actions).OccursAsOffered questions r) ∧
        ((Form.compile p).OffersOnce →
          ∀ r ∈ (s₀.run actions).data.records, occurrences questions r.id ≤ 1) := by
  obtain ⟨s₀, hstart, hform⟩ := exists_start hsteps
  refine ⟨s₀, hstart, fun actions hfresh language => ?_⟩
  have hrun : (s₀.run actions).form = Form.compile p := (form_run s₀ actions).trans hform
  have hs : (s₀.run actions).Sound := (sound_of_start hstart hfresh).2
  obtain ⟨questions, h⟩ := exists_submitted hs language
  refine ⟨hrun, questions, h, fun owner q hq => ?_, fun r hr => occursAsOffered hs h hr,
    fun honce r hr => ?_⟩
  · obtain ⟨t, f, hshows⟩ := Submission.exists_shows h hq
    obtain ⟨-, n, values, -, hmake⟩ := Submission.made_of_shows h hshows
    exact hs.data.distinct.sublist (Submission.entries_sublist hmake)
  · rw [← hrun] at honce
    exact Submission.occurrences_le_one hs.data.distinct h honce hr

/-! ## Two packages -/

theorem offersOnce_nestedPackage : (Form.compile nestedPackage).OffersOnce := by
  have h : decide (Form.compile nestedPackage).OffersOnce = true := by cbv
  exact of_decide_eq_true h

/-- A record and one inside it come into the submission at most once. -/
theorem occurrences_run_nested : (Form.compile nestedPackage).steps ≠ [] ∧
    (Form.compile nestedPackage).OffersOnce ∧
    ∃ s₀, start (Form.compile nestedPackage) = .ok s₀ ∧ s₀.FreshRun finishedRun ∧
      ∃ questions, ((s₀.run finishedRun).submission "eng").questions? = some questions ∧
        ∃ r ∈ (s₀.run finishedRun).data.records, r.step = "firm" ∧
          (s₀.run finishedRun).OccursAsOffered questions r ∧ occurrences questions r.id ≤ 1 := by
  obtain ⟨s₀, hstart, hrun⟩ := occurrences_run steps_nestedPackage
  have hfresh : s₀.FreshRun finishedRun := freshRun_of_start hstart (by decide)
  obtain ⟨r, hr, hvalues⟩ := Option.map_eq_some_iff.1 (of_start hstart record_finishedRun)
  have hmem := FormData.mem_of_record? hr
  obtain ⟨-, questions, h, -, hoffered, honce⟩ := hrun finishedRun hfresh "eng"
  exact ⟨steps_nestedPackage, offersOnce_nestedPackage, s₀, hstart, hfresh, questions, h, r, hmem,
    (Prod.mk.inj hvalues).1, hoffered r hmem, honce offersOnce_nestedPackage r hmem⟩

/-- A package whose works show their author on two pages. -/
def twoPagePackage : Package where
  bundle := {
    main := { captureBase := {
      digest := "work", attributes := [("title", .text "Text"), ("author", .text "refs:person")] } }
    dependencies := [
      { captureBase := { digest := "person", attributes := [("name", .text "Text")] } }] }
  presentations := [
    { captureBase := "work"
      pageOrder := ["work", "summary"]
      pages := [
        { key := "work", order := [.single "title", .single "author"] },
        { key := "summary", order := [.single "author"] }]
      interactions := [SortedMap.empty.insert "author" { kind := some (.name "reference") }] }]

/-- A run that enters one author. -/
def authorRun : List SessionAction := [
  .addRecord "author" "a", .edit "name" (.text "Ada"), .finish]

theorem steps_twoPagePackage : (Form.compile twoPagePackage).steps ≠ [] := by
  have hlength : (Form.compile twoPagePackage).steps.length = 2 := by cbv
  exact List.ne_nil_of_length_eq_add_one hlength

theorem offers_twoPagePackage :
    offersOf ((Form.compile twoPagePackage).parents.flatMap (·.fields)) =
      [("author", "person"), ("author", "person")] := by cbv

theorem record_authorRun : (start (Form.compile twoPagePackage)).toOption.any fun s =>
    ((s.run authorRun).data.record? "a").map (fun r => (r.owner, r.field, r.step)) =
      some (none, "author", "person") := by cbv

/-- An author whose field stands on two pages is submitted twice. -/
theorem author_submitted_twice :
    ∃ s₀, start (Form.compile twoPagePackage) = .ok s₀ ∧ s₀.FreshRun authorRun ∧
      ∃ questions, ((s₀.run authorRun).submission "eng").questions? = some questions ∧
        ∃ r ∈ (s₀.run authorRun).data.records, occurrences questions r.id = 2 := by
  obtain ⟨s₀, hstart, hform⟩ := exists_start steps_twoPagePackage
  have hfresh : s₀.FreshRun authorRun := freshRun_of_start hstart (by decide)
  have hrun : (s₀.run authorRun).form = Form.compile twoPagePackage :=
    (form_run s₀ authorRun).trans hform
  have hs : (s₀.run authorRun).Sound := (sound_of_start hstart hfresh).2
  obtain ⟨questions, h⟩ := exists_submitted hs "eng"
  obtain ⟨r, hr, hplace⟩ := Option.map_eq_some_iff.1 (of_start hstart record_authorRun)
  simp only [Prod.mk.injEq] at hplace
  obtain ⟨howner, hfield, hstep⟩ := hplace
  have hmem := FormData.mem_of_record? hr
  have hcount := occurrences_of_free hs h hmem howner
  rw [hrun, ChildRecord.timesOffered, offers_twoPagePackage, hfield, hstep] at hcount
  exact ⟨s₀, hstart, hfresh, questions, h, r, hmem, hcount.trans (by decide)⟩

end Questionnaire.Session
