import Questionnaire.Proofs.Submission.Document

/-
  Where questions and entries stand in a submission document.

  `Asks` says that a question stands in a document, outside all entries or in the entry of a record;
  `Shows` says as well which field of which step it was made from, as the one at the same position.
  Every question shows a field (`exists_shows`), and one that shows a field was made from it, with
  the answers of a parent step or of a record that a parent step leads to (`made_of_shows`). From
  this follows what a document looks like while records differ in their ids (`entries_correct`).
-/

namespace Questionnaire

/-! ## Places in a document -/

/-- A question stands in a document: outside all entries, or in the entry of a record. -/
inductive Asks (questions : List Question) : Option String → Question → Prop
  | top {q} (hq : q ∈ questions) : Asks questions none q
  | inner {owner q e p} (h : Asks questions owner q) (he : e ∈ q.entries) (hp : p ∈ e.questions) :
      Asks questions (some e.id) p

/-- The fields of all parent steps in order, each with its step. -/
def Form.parentFields (f : Form) : List (Step × Field) :=
  f.parents.flatMap fun t => t.fields.map (t, ·)

/-- A question of a document shows a field of a step, outside all entries or in the entry of a
record: it stands where the field stands among those of all parent steps, or of its own step. -/
inductive Shows (form : Form) (questions : List Question) :
    Option String → Step → Field → Question → Prop
  | top {t f q} (h : ((t, f), q) ∈ form.parentFields.zip questions) :
      Shows form questions none t f q
  | inner {owner t f q e u g p} (h : Shows form questions owner t f q) (he : e ∈ q.entries)
      (hu : form.step? e.step = some u) (hp : (g, p) ∈ u.fields.zip e.questions) :
      Shows form questions (some e.id) u g p

section Places

variable {form : Form} {questions : List Question} {owner : Option String} {q : Question}

theorem Shows.asks {t : Step} {f : Field} (h : Shows form questions owner t f q) :
    Asks questions owner q := by
  induction h with
  | top h => exact .top (List.of_mem_zip h).2
  | inner _ he _ hp ih => exact .inner ih he (List.of_mem_zip hp).2

/-- Every entry of a document stands below one of its questions. -/
theorem exists_asks_of_holds {e : RecordEntry} (h : Holds questions e) :
    ∃ owner q, Asks questions owner q ∧ e ∈ q.entries := by
  induction h with
  | top hq he => exact ⟨none, _, .top hq, he⟩
  | deeper _ hq he ih =>
    obtain ⟨owner, p, hp, he'⟩ := ih
    exact ⟨_, _, .inner hp he' hq, he⟩

end Places

/-! ## What a question shows -/

/-- What a question shows besides its entries: the id, label and kind of a field, and an answer. -/
abbrev Face := String × String × FieldKind × Option Answer

/-- What a question shows besides its entries. -/
def Question.face (q : Question) : Face := (q.id, q.label, q.kind, q.answer)

/-- What the question of a field shows besides its entries. -/
def Field.face (f : Field) (language : String) (values : Values) : Face :=
  (f.id, f.displayLabel language, f.kind, values.get? f.id)

namespace Submission

variable {s : Submission} {f : Field} {owner : Option String} {n : Nat} {values : Values}

theorem face_of_question {q : Question} (h : s.question n owner values f = some q) :
    q.face = f.face s.language values := by
  cases n with
  | zero =>
    obtain ⟨-, rfl⟩ := question_zero_eq_some.1 h
    rfl
  | succ n =>
    obtain ⟨entries, -, rfl⟩ := question_succ_eq_some.1 h
    rfl

/-- Below a question stand the entries of the records that its field owns, in their order. -/
theorem map_id_entries {q : Question} (h : s.question n owner values f = some q) :
    q.entries.map (·.id) = (s.owned f owner).map (·.1.id) := by
  cases n with
  | zero =>
    obtain ⟨hempty, rfl⟩ := question_zero_eq_some.1 h
    rw [hempty]
    rfl
  | succ n =>
    obtain ⟨entries, hentries, rfl⟩ := question_succ_eq_some.1 h
    refine map_eq_of_mapM (fun rt e he => ?_) hentries
    exact (isEntryOf_of_entry he).1

theorem owned_sublist (s : Submission) (f : Field) (owner : Option String) :
    ((s.owned f owner).map (·.1)).Sublist s.data.records := by
  unfold owned
  split
  · exact List.nil_sublist _
  · split
    · exact List.nil_sublist _
    · rw [List.map_map]
      have hid : (fun x : ChildRecord × Step => x.1) ∘ (fun r => (r, ‹Step›)) = id := rfl
      rw [hid, List.map_id]
      exact List.filter_sublist.trans List.filter_sublist

/-- Entries below one question follow the order of the records. -/
theorem entries_sublist {q : Question} (h : s.question n owner values f = some q) :
    (q.entries.map (·.id)).Sublist (s.data.records.map (·.id)) := by
  have hmap : (s.owned f owner).map (·.1.id) = ((s.owned f owner).map (·.1)).map (·.id) := by
    rw [List.map_map]
    rfl
  rw [map_id_entries h, hmap]
  exact (owned_sublist s f owner).map _

/-! ## The field that a question was made from -/

/-- The answers that questions of a step show: those of a parent step outside all records, or those
of a record that a parent step leads to. -/
inductive Source (s : Submission) : Option String → Step → Values → Prop
  | step {t} (ht : t ∈ s.form.parents) : Source s none t ((s.data.stepValues? t.id).getD ∅)
  | record {r t} (hr : s.data.Anchored s.form r) (ht : s.form.step? r.step = some t) :
      Source s (some r.id) t r.values

/-- The entries below a question are those of records that a parent step leads to. -/
theorem exists_record_of_source {t : Step} (hsource : s.Source owner t values) (hf : f ∈ t.fields)
    {q : Question} (h : s.question n owner values f = some q) {e : RecordEntry}
    (he : e ∈ q.entries) :
    ∃ r u, s.data.Anchored s.form r ∧ r.field = q.id ∧ r.owner = owner ∧
      s.form.step? r.step = some u ∧ s.IsEntryOf r u e := by
  obtain ⟨hid, -, -, hentries⟩ := question_spec h
  obtain ⟨r, u, hru, hentry⟩ := hentries e he
  obtain ⟨htarget, hstep, hr, hfield, howner⟩ := mem_owned.1 hru
  have hanchored : s.data.Anchored s.form r := by
    cases hsource with
    | step ht => exact .free hr hstep howner ht ⟨f, hf, hfield.symm, htarget⟩
    | record ho ht => exact .owned ho hr hstep howner ht ⟨f, hf, hfield.symm, htarget⟩
  exact ⟨r, u, hanchored, hfield.trans hid.symm, howner, hstep, hentry⟩

variable {questions : List Question}

theorem mapM_parentFields (h : s.questions? = some questions) :
    s.form.parentFields.mapM (fun tf => s.question s.data.records.length none
      ((s.data.stepValues? tf.1.id).getD ∅) tf.2) = some questions := by
  obtain ⟨parts, hparts, rfl⟩ := Option.map_eq_some_iff.1 h
  clear h
  unfold Form.parentFields
  generalize s.form.parents = ts at hparts
  induction ts generalizing parts with
  | nil =>
    cases hparts
    rfl
  | cons t ts ih =>
    simp only [List.mapM_cons, bind, Option.bind_eq_some_iff] at hparts
    obtain ⟨part, hpart, rest, hrest, hparts⟩ := hparts
    cases hparts
    rw [List.flatMap_cons, List.mapM_append, List.mapM_map, List.flatten_cons, ih rest hrest]
    have hpart' : t.fields.mapM ((fun tf : Step × Field => s.question s.data.records.length none
        ((s.data.stepValues? tf.1.id).getD ∅) tf.2) ∘ (t, ·)) = some part := hpart
    rw [hpart']
    rfl

/-- A question that shows a field was made from it. -/
theorem made_of_shows (h : s.questions? = some questions) {t : Step} {q : Question}
    (hq : Shows s.form questions owner t f q) :
    f ∈ t.fields ∧ ∃ n values, s.Source owner t values ∧ s.question n owner values f = some q := by
  induction hq with
  | @top t f q hq =>
    have hmake := of_mem_zip_of_mapM (mapM_parentFields h) hq
    obtain ⟨t', ht, hf⟩ := List.mem_flatMap.1 (List.of_mem_zip hq).1
    obtain ⟨f', hf, heq⟩ := List.mem_map.1 hf
    cases heq
    exact ⟨hf, _, _, .step ht, hmake⟩
  | @inner owner t f q e u g p _ he hu hp ih =>
    obtain ⟨hf, n, values, hsource, hmake⟩ := ih
    obtain ⟨r, u', hr, -, -, hu', hid, hstep, m, hquestions⟩ :=
      exists_record_of_source hsource hf hmake he
    rw [hstep, hu'] at hu
    cases hu
    have hmake' := of_mem_zip_of_mapM hquestions hp
    exact ⟨(List.of_mem_zip hp).1, m, r.values, hid ▸ .record hr hu', hid ▸ hmake'⟩

/-- Every question of a document shows a field. -/
theorem exists_shows (h : s.questions? = some questions) {q : Question}
    (hq : Asks questions owner q) : ∃ t f, Shows s.form questions owner t f q := by
  induction hq with
  | top hq =>
    obtain ⟨⟨t, f⟩, htf⟩ := exists_mem_zip_of_mapM (mapM_parentFields h) hq
    exact ⟨t, f, .top htf⟩
  | inner _ he hp ih =>
    obtain ⟨t, f, hshows⟩ := ih
    obtain ⟨hf, n, values, hsource, hmake⟩ := made_of_shows h hshows
    obtain ⟨r, u, -, -, -, hu, -, hstep, m, hquestions⟩ :=
      exists_record_of_source hsource hf hmake he
    obtain ⟨g, hg⟩ := exists_mem_zip_of_mapM hquestions hp
    exact ⟨u, g, .inner hshows he (hstep ▸ hu) hg⟩

/-! ## What a document looks like -/

/-- The top questions of a document show the fields of the parent steps in order. -/
theorem map_face_questions (h : s.questions? = some questions) :
    questions.map (·.face) = s.form.parentFields.map fun tf =>
      tf.2.face s.language ((s.data.stepValues? tf.1.id).getD ∅) :=
  map_eq_of_mapM (fun _ _ => face_of_question) (mapM_parentFields h)

theorem IsEntryOf.map_face {r : ChildRecord} {u : Step} {e : RecordEntry}
    (h : s.IsEntryOf r u e) :
    e.questions.map (·.face) = u.fields.map (·.face s.language r.values) := by
  obtain ⟨-, -, n, hquestions⟩ := h
  exact map_eq_of_mapM (fun _ _ => face_of_question) hquestions

theorem exists_holds_iff (hd : (s.data.records.map (·.id)).Nodup)
    (h : s.questions? = some questions) {r : ChildRecord} (hr : r ∈ s.data.records) :
    (∃ e, Holds questions e ∧ e.id = r.id) ↔ s.data.Anchored s.form r := by
  constructor
  · rintro ⟨e, he, hid⟩
    obtain ⟨r', t, hr', -, hid', -⟩ := exists_anchored_of_holds h he
    have heq : r = r' := List.inj_on_of_nodup_map hd hr hr'.mem (hid.symm.trans hid')
    exact heq ▸ hr'
  · intro hanchored
    obtain ⟨e, t, he, -, hid, -⟩ := holds_of_anchored h hanchored
    exact ⟨e, he, hid⟩

/-- While records differ in their ids, a document has an end and has entries for exactly those
records that a parent step leads to. An entry stands below the question of the field that owns its
record, outside all entries or in an entry of the record's owner, and entries below one question
follow the order of the records. The questions of an entry show the fields of its record's step with
the record's answers, and those outside all entries the fields of the parent steps with theirs. -/
theorem entries_correct (s : Submission) (hd : (s.data.records.map (·.id)).Nodup) :
    ∃ questions, s.questions? = some questions ∧
      (∀ r ∈ s.data.records,
        (∃ e, Holds questions e ∧ e.id = r.id) ↔ s.data.Anchored s.form r) ∧
      (∀ e, Holds questions e → ∃ owner q, Asks questions owner q ∧ e ∈ q.entries) ∧
      (∀ owner q, Asks questions owner q →
        (q.entries.map (·.id)).Sublist (s.data.records.map (·.id)) ∧
        ∀ e ∈ q.entries, ∃ r ∈ s.data.records, ∃ u,
          e.id = r.id ∧ r.owner = owner ∧ r.field = q.id ∧
            e.step = r.step ∧ s.form.step? r.step = some u ∧
            e.questions.map (·.face) = u.fields.map (·.face s.language r.values)) ∧
      questions.map (·.face) = s.form.parentFields.map fun tf =>
        tf.2.face s.language ((s.data.stepValues? tf.1.id).getD ∅) := by
  obtain ⟨questions, h⟩ := exists_questions? hd
  refine ⟨questions, h, fun r hr => exists_holds_iff hd h hr, fun e he => exists_asks_of_holds he,
    fun owner q hq => ?_, map_face_questions h⟩
  obtain ⟨t, f, hshows⟩ := exists_shows h hq
  obtain ⟨hf, n, values, hsource, hmake⟩ := made_of_shows h hshows
  refine ⟨entries_sublist hmake, fun e he => ?_⟩
  obtain ⟨r, u, hr, hfield, howner, hu, hentry⟩ := exists_record_of_source hsource hf hmake he
  exact ⟨r, hr.mem, u, hentry.1, howner, hfield, hentry.2.1, hu, hentry.map_face⟩

/-! ## A record that owns itself -/

/-- A record that owns itself is led to by none. -/
theorem not_anchored_of_owner_self {form : Form} {d : FormData} (hd : (d.records.map (·.id)).Nodup)
    {r : ChildRecord} (howner : r.owner = some r.id) : ¬ d.Anchored form r := by
  intro h
  induction h with
  | free _ _ hnone =>
    rw [hnone] at howner
    cases howner
  | @owned o r _ _ ho hr _ howner' _ _ ih =>
    have hid : o.id = r.id := Option.some.inj (howner'.symm.trans howner)
    obtain rfl := List.inj_on_of_nodup_map hd ho.mem hr hid
    exact ih howner

/-- An author with an employer, and an employer that owns itself. -/
def employers : FormData where
  records := [
    { id := "a", field := "author", step := "person" },
    { id := "b", field := "employer", owner := some "a", step := "firm" },
    { id := "c", field := "employer", owner := some "c", step := "firm" }]

theorem anchored_employer : employers.Anchored Session.nestedForm
    { id := "b", field := "employer", owner := some "a", step := "firm" } := by
  have hauthor : ∃ t ∈ Session.nestedForm.parents, t.Offers "author" "person" := by decide
  have hemployer : ∃ t, Session.nestedForm.step? "person" = some t ∧ t.Offers "employer" "firm" :=
    ⟨_, rfl, by decide⟩
  obtain ⟨t, ht, hauthor⟩ := hauthor
  obtain ⟨u, hu, hemployer⟩ := hemployer
  have hperson : employers.Anchored Session.nestedForm
      { id := "a", field := "author", step := "person" } :=
    .free List.mem_cons_self hu rfl ht hauthor
  exact .owned hperson (by decide) rfl rfl hu hemployer

/-- The author's employer has an entry, the one that owns itself has none. -/
theorem entries_correct_employers : (employers.records.map (·.id)).Nodup ∧
    ∃ questions, (Submission.mk Session.nestedForm employers "eng").questions? = some questions ∧
      (∃ e, Holds questions e ∧ e.id = "b") ∧ ¬ ∃ e, Holds questions e ∧ e.id = "c" := by
  have hd : (employers.records.map (·.id)).Nodup := by decide
  obtain ⟨questions, h, hentries, -⟩ :=
    entries_correct (Submission.mk Session.nestedForm employers "eng") hd
  have hself : ¬ employers.Anchored Session.nestedForm
      { id := "c", field := "employer", owner := some "c", step := "firm" } :=
    not_anchored_of_owner_self hd rfl
  refine ⟨hd, questions, h, (hentries _ ?_).2 anchored_employer,
    fun he => hself ((hentries _ ?_).1 he)⟩ <;> decide

end Submission
end Questionnaire
