import Questionnaire.Proofs.Session.Parents
import Questionnaire.Proofs.Step.Targets
import Questionnaire.Review

/-
  Saving a page and reviewing the answers agree.

  Saving judges the fields of one page by the answers of the active scope. A review judges all
  fields of every parent step (`Form.mem_review_parent`) and of every record
  (`Form.mem_review_record`). Where the user stands at a parent step or in a record, the active
  scope is one of those, and no other has its step and record (`mem_review_scope`). A review may
  judge a copy of a field on another page, but copies are equal (`Package.mem_fields_of_id_eq`).

  A child step outside all records is left out: there saving judges answers that no review looks
  at.
-/

namespace Questionnaire

/-! ## Copies of a field -/

/-- A page that shows a field shows all fields of its step with the same id, since they are equal. -/
theorem Package.mem_fields_of_id_eq {p : Package} {s : Step} (hs : s ∈ p.discoveredSteps)
    {page : Page} (hpage : page ∈ s.pages) {f g : Field} (hf : f ∈ page.fields)
    (hg : g ∈ s.fields) (hid : g.id = f.id) : g ∈ page.fields := by
  have hfield : f ∈ s.fields := List.mem_flatMap.2 ⟨page, hpage, hf⟩
  exact eq_of_mem_fields hs hg hfield hid ▸ hf

/-! ## What a review lists -/

/-- A field with an id, of a step with some values, is rejected. -/
def Step.Rejects (t : Step) (values : Values) (language field : String) (e : Rejection) : Prop :=
  ∃ f ∈ t.fields, f.id = field ∧ f.validate (values.get? f.id) language = some e

theorem Step.mem_review_iff {t : Step} {record record' : Option String} {values : Values}
    {language id field : String} {e : Rejection} :
    ⟨id, record', field, e⟩ ∈ t.review record values language ↔
      t.id = id ∧ record = record' ∧ t.Rejects values language field e := by
  simp only [review, Rejects, List.mem_filterMap, Option.map_eq_some_iff, InvalidAnswer.mk.injEq]
  constructor
  · rintro ⟨f, hf, _, he, hid, hrecord, hfield, rfl⟩
    exact ⟨hid, hrecord, f, hf, hfield, he⟩
  · rintro ⟨hid, hrecord, f, hf, hfield, he⟩
    exact ⟨f, hf, e, he, hid, hrecord, hfield, rfl⟩

namespace Form

variable {form : Form} {d : FormData} {t : Step} {language field : String} {e : Rejection}

theorem mem_reviewRecord_iff {r : ChildRecord} {id : String} {record : Option String} :
    ⟨id, record, field, e⟩ ∈ form.reviewRecord language r ↔ ∃ t, form.step? r.step = some t ∧
      t.id = id ∧ some r.id = record ∧ t.Rejects r.values language field e := by
  rw [reviewRecord]
  cases form.step? r.step with
  | none => simp
  | some t => simp [Step.mem_review_iff]

/-- Outside all records, a review lists under a parent step the failures of its own answers. -/
theorem mem_review_parent (hids : (form.steps.map (·.id)).Nodup) (ht : t ∈ form.parents) :
    ⟨t.id, none, field, e⟩ ∈ form.review d language ↔
      t.Rejects (valuesOf d t) language field e := by
  rw [review, List.mem_append, List.mem_flatMap, List.mem_flatMap]
  constructor
  · rintro (⟨t', ht', hmem⟩ | ⟨r, -, hmem⟩)
    · obtain ⟨hid, -, hrejects⟩ := Step.mem_review_iff.1 hmem
      have heq : t' = t := List.inj_on_of_nodup_map hids (List.mem_of_mem_filter ht')
        (List.mem_of_mem_filter ht) hid
      exact heq ▸ hrejects
    · obtain ⟨-, -, -, hrecord, -⟩ := mem_reviewRecord_iff.1 hmem
      cases hrecord
  · intro hrejects
    exact .inl ⟨t, ht, Step.mem_review_iff.2 ⟨rfl, rfl, hrejects⟩⟩

/-- Under a record, a review lists the failures of that record's answers. -/
theorem mem_review_record (hd : (d.records.map (·.id)).Nodup) {r : ChildRecord}
    (hr : r ∈ d.records) (ht : form.step? r.step = some t) :
    ⟨t.id, some r.id, field, e⟩ ∈ form.review d language ↔
      t.Rejects r.values language field e := by
  rw [review, List.mem_append, List.mem_flatMap, List.mem_flatMap]
  constructor
  · rintro (⟨t', -, hmem⟩ | ⟨r', hr', hmem⟩)
    · cases (Step.mem_review_iff.1 hmem).2.1
    · obtain ⟨t', ht', -, hid, hrejects⟩ := mem_reviewRecord_iff.1 hmem
      obtain rfl := List.inj_on_of_nodup_map hd hr' hr (Option.some.inj hid)
      obtain rfl := Option.some.inj (ht'.symm.trans ht)
      exact hrejects
  · intro hrejects
    exact .inr ⟨r, hr, mem_reviewRecord_iff.2 ⟨t, ht, rfl, rfl, hrejects⟩⟩

end Form

namespace Session

variable {s : Session}

/-- The answers committed in the active scope. -/
def answers (s : Session) : Values := (s.committed? s.scope).getD ∅

/-- Under the current step and the record being edited, a review lists the failures of the active
scope, and only these. -/
theorem mem_review_scope (h : s.InPlace) (hd : (s.data.records.map (·.id)).Nodup)
    (hids : (s.form.steps.map (·.id)).Nodup) (hat : s.AtParent) {language field : String}
    {e : Rejection} :
    ⟨s.currentStep.id, s.active.head?.map (·.id), field, e⟩ ∈ s.form.review s.data language ↔
      s.currentStep.Rejects s.answers language field e := by
  cases hactive : s.active with
  | nil =>
    have hanswers : s.answers = Form.valuesOf s.data s.currentStep := by
      rw [answers, scope, hactive]
      rfl
    rw [hanswers]
    exact Form.mem_review_parent hids (currentStep_mem_parents (hat hactive))
  | cons a rest =>
    obtain ⟨r, hr, hstep⟩ := step?_innermost h hactive
    have hanswers : s.answers = r.values := by
      simp only [answers, scope, hactive, committed?, hr]
      rfl
    rw [hanswers, List.head?_cons, Option.map_some, ← FormData.id_of_record? hr]
    exact Form.mem_review_record hd (FormData.mem_of_record? hr) hstep

/-- Saving gives the failures of the current page by the answers that it commits. -/
theorem mem_save_iff {field : String} {e : Rejection} :
    (field, e) ∈ s.save.1 ↔ ∃ page, s.currentPage? = some page ∧ ∃ f ∈ page.fields,
      f.id = field ∧ f.validate (s.commit.answers.get? f.id) s.language = some e := by
  have hpage : s.commit.currentPage? = s.currentPage? := by simp [currentPage?]
  have hsave : s.save.1 = s.commit.pageOutcomes.filterMap fun o => o.2.map (o.1, ·) := rfl
  rw [hsave, pageOutcomes, hpage, commit_language]
  cases s.currentPage? with
  | none => simp
  | some page => simp [answers, and_comm]

/-- In a session on a compiled form, in a record or at a parent step, saving gives exactly those
failures of fields of the current page that a review of the answers saved lists for the current
step and the record being edited. -/
theorem mem_save_iff_mem_review {p : Package} (h : Reached (Form.compile p) s) (hat : s.AtParent)
    (field : String) (e : Rejection) :
    (field, e) ∈ s.save.1 ↔
      (∃ page, s.currentPage? = some page ∧ ∃ f ∈ page.fields, f.id = field) ∧
        ⟨s.currentStep.id, s.active.head?.map (·.id), field, e⟩ ∈
          (Form.compile p).review s.save.2.data s.language := by
  have hdata : s.save.2.data = s.commit.data := by
    obtain ⟨failures, hsave⟩ := s.save_eq
    rw [hsave]
  have hids : (s.commit.form.steps.map (·.id)).Nodup := by
    rw [commit_form, h.form_eq]
    exact Form.nodup_ids_compile p
  have hlinked := FormData.linked_of_frames_eq (frames_commit s) h.linked
  have hatc : s.commit.AtParent := by simpa [AtParent] using hat
  have hreview : ⟨s.commit.currentStep.id, s.commit.active.head?.map (·.id), field, e⟩ ∈
      s.commit.form.review s.commit.data s.language ↔ _ :=
    mem_review_scope (inPlace_commit h.inPlace) hlinked.distinct hids hatc
  rw [commit_currentStep, commit_active, commit_form, h.form_eq] at hreview
  rw [mem_save_iff, hdata, hreview]
  constructor
  · rintro ⟨page, hpage, f, hf, hid, he⟩
    have hmem : page ∈ s.currentStep.pages := List.mem_of_getElem? hpage
    exact ⟨⟨page, hpage, f, hf, hid⟩, f, List.mem_flatMap.2 ⟨page, hmem, hf⟩, hid, he⟩
  · -- The field that the review judged may stand on another page as well.
    rintro ⟨⟨page, hpage, f, hf, hid⟩, g, hg, hgid, he⟩
    have hmem : page ∈ s.currentStep.pages := List.mem_of_getElem? hpage
    have hshown := Package.mem_fields_of_id_eq h.currentStep_mem hmem hf hg (hgid.trans hid.symm)
    exact ⟨page, hpage, g, hshown, hgid, he⟩

/-! ## A name on two pages -/

/-- A package whose works have authors, who must have a name; two pages ask for it. -/
def authorPackage : Package where
  bundle := {
    main := { captureBase := { digest := "work", attributes := [("author", .text "refs:person")] } }
    dependencies := [{
      captureBase := { digest := "person", attributes := [("name", .text "Text")] }
      overlays := { conformance := some (SortedMap.empty.insert "name" (some "M")) } }] }
  presentations := [
    { captureBase := "work"
      interactions := [SortedMap.empty.insert "author" { kind := some (.name "reference") }] },
    { captureBase := "person"
      pages := [{ key := "first", order := [.single "name"] },
        { key := "second", order := [.single "name"] }]
      pageOrder := ["first", "second"] }]

theorem steps_authorPackage : (Form.compile authorPackage).steps ≠ [] := by
  have hlength : (Form.compile authorPackage).steps.length = 2 := by cbv
  exact List.ne_nil_of_length_eq_add_one hlength

/-- A run to the second page of an author. -/
def secondPageRun : List SessionAction := [.addRecord "author" "a", .next]

theorem place_secondPageRun : (start (Form.compile authorPackage)).toOption.any fun s =>
    (s.run secondPageRun).AtParent ∧ (s.run secondPageRun).page = 1 ∧
      (s.run secondPageRun).currentStep.id = "person" ∧
      (s.run secondPageRun).active.head?.map (·.id) = some "a" ∧
      (s.run secondPageRun).save.1 = [("name", .required)] := by cbv

/-- On the second page of an author, the missing name is given by saving and listed by a review. -/
theorem mem_save_iff_mem_review_author : ∃ s, Reached (Form.compile authorPackage) s ∧ s.AtParent ∧
    s.page = 1 ∧ ("name", .required) ∈ s.save.1 ∧
    ⟨"person", some "a", "name", .required⟩ ∈
      (Form.compile authorPackage).review s.save.2.data s.language := by
  obtain ⟨s₀, hstart, -⟩ := exists_start steps_authorPackage
  have h : Reached (Form.compile authorPackage) (s₀.run secondPageRun) :=
    reached_of_start hstart (by decide)
  obtain ⟨hat, hpage, hstep, hactive, hsave⟩ := of_start hstart place_secondPageRun
  have hmem : ("name", .required) ∈ (s₀.run secondPageRun).save.1 := by simp [hsave]
  have hlisted := ((mem_save_iff_mem_review h hat "name" .required).1 hmem).2
  rw [hstep, hactive] at hlisted
  exact ⟨_, h, hat, hpage, hmem, hlisted⟩

end Session
end Questionnaire
