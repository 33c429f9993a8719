import Questionnaire.Proofs.Submission.Placement

/-
  How often a record has an entry in a submission document.

  `occurrences` counts the entries of a record at all depths. Each entry stands directly below the
  top questions or directly below the questions of another entry (`countId_allEntriesOf`). So, while
  records differ in their ids, a record outside others has an entry for each time that the fields of
  parent steps offer it (`occurrences_free`), and one inside another has, for every entry of its
  owner, one for each time that the fields of the owner's step do (`occurrences_owned`).
-/

namespace Questionnaire

/-! ## All entries of a document -/

mutual

/-- All entries below a question, at any depth. -/
def Question.allEntries : Question → List RecordEntry
  | .mk _ _ _ _ entries => RecordEntry.allOf entries

/-- Entries, each followed by all entries below it. -/
def RecordEntry.allOf : List RecordEntry → List RecordEntry
  | [] => []
  | .mk id step questions :: entries =>
    .mk id step questions :: (Question.allEntriesOf questions ++ RecordEntry.allOf entries)

/-- All entries below questions, at any depth. -/
def Question.allEntriesOf : List Question → List RecordEntry
  | [] => []
  | q :: questions => q.allEntries ++ Question.allEntriesOf questions

end

/-- The entries directly below questions. -/
def Question.entriesOf (questions : List Question) : List RecordEntry :=
  questions.flatMap (·.entries)

namespace RecordEntry

/-- How many of some entries are those of a record with an id. -/
def countId (id : String) (entries : List RecordEntry) : Nat := (entries.map (·.id)).count id

/-- How many entries directly below some are those of a record with an id. -/
def countBelow (id : String) (entries : List RecordEntry) : Nat :=
  countId id (entries.flatMap fun e => Question.entriesOf e.questions)

theorem countId_cons (id : String) (e : RecordEntry) (entries : List RecordEntry) :
    countId id (e :: entries) = (if e.id = id then 1 else 0) + countId id entries := by
  rw [countId, List.map_cons, List.count_cons, Nat.add_comm]
  simp [countId]

theorem countId_append (id : String) (entries more : List RecordEntry) :
    countId id (entries ++ more) = countId id entries + countId id more := by
  rw [countId, List.map_append, List.count_append]
  rfl

theorem countBelow_cons (id : String) (e : RecordEntry) (entries : List RecordEntry) :
    countBelow id (e :: entries) =
      countId id (Question.entriesOf e.questions) + countBelow id entries := by
  rw [countBelow, List.flatMap_cons, countId_append]
  rfl

theorem countBelow_append (id : String) (entries more : List RecordEntry) :
    countBelow id (entries ++ more) = countBelow id entries + countBelow id more := by
  rw [countBelow, List.flatMap_append, countId_append]
  rfl

/-- Where only entries of one record have some below them, and each as many, there are as many as
the product says. -/
theorem countBelow_eq_mul {id owner : String} {k : Nat} {entries : List RecordEntry}
    (h : ∀ e ∈ entries,
      countId id (Question.entriesOf e.questions) = if e.id = owner then k else 0) :
    countBelow id entries = countId owner entries * k := by
  induction entries with
  | nil => exact (Nat.zero_mul k).symm
  | cons e entries ih =>
    have hrest := ih fun e' he' => h e' (List.mem_cons_of_mem _ he')
    rw [countBelow_cons, countId_cons, h e List.mem_cons_self, hrest, Nat.add_mul]
    split
    · rw [Nat.one_mul]
    · rw [Nat.zero_mul]

end RecordEntry

open RecordEntry

/-- How often a record with an id has an entry in a document, at any depth. -/
def occurrences (questions : List Question) (id : String) : Nat :=
  countId id (Question.allEntriesOf questions)

/-! ## Every entry stands directly below something -/

mutual

theorem Question.countId_allEntries (id : String) : ∀ q : Question,
    countId id q.allEntries = countId id q.entries + countBelow id q.allEntries
  | .mk _ _ _ _ entries => by
    rw [Question.allEntries]
    exact RecordEntry.countId_allOf id entries

theorem RecordEntry.countId_allOf (id : String) : ∀ entries : List RecordEntry,
    countId id (allOf entries) = countId id entries + countBelow id (allOf entries)
  | [] => rfl
  | .mk _ _ questions :: entries => by
    have hinner := Question.countId_allEntriesOf id questions
    have hrest := RecordEntry.countId_allOf id entries
    rw [allOf, countId_cons, countId_cons, countId_append, countBelow_cons, countBelow_append,
      hinner, hrest, RecordEntry.questions]
    omega

theorem Question.countId_allEntriesOf (id : String) : ∀ questions : List Question,
    countId id (Question.allEntriesOf questions) =
      countId id (Question.entriesOf questions) + countBelow id (Question.allEntriesOf questions)
  | [] => rfl
  | q :: questions => by
    have hq := Question.countId_allEntries id q
    have hrest := Question.countId_allEntriesOf id questions
    have hcons : Question.entriesOf (q :: questions) = q.entries ++ Question.entriesOf questions :=
      List.flatMap_cons
    rw [Question.allEntriesOf, countId_append, countBelow_append, hq, hrest, hcons, countId_append]
    omega

end

mutual

theorem Question.holds_of_mem_allEntries {questions : List Question} {e : RecordEntry} :
    ∀ {q : Question}, (∀ o ∈ q.entries, Holds questions o) → e ∈ q.allEntries → Holds questions e
  | .mk _ _ _ _ _, h, he => by
    rw [Question.allEntries] at he
    exact RecordEntry.holds_of_mem_allOf h he

theorem RecordEntry.holds_of_mem_allOf {questions : List Question} {e : RecordEntry} :
    ∀ {entries : List RecordEntry}, (∀ o ∈ entries, Holds questions o) → e ∈ allOf entries →
      Holds questions e
  | [], _, he => absurd he List.not_mem_nil
  | .mk _ _ inner :: entries, h, he => by
    have ho := h _ List.mem_cons_self
    rw [allOf] at he
    rcases List.mem_cons.1 he with rfl | he
    · exact ho
    · rcases List.mem_append.1 he with he | he
      · have hinner : ∀ q ∈ inner, ∀ o ∈ q.entries, Holds questions o :=
          fun q hq o ho' => .deeper ho hq ho'
        exact Question.holds_of_mem_allOf hinner he
      · exact RecordEntry.holds_of_mem_allOf (fun o ho => h o (List.mem_cons_of_mem _ ho)) he

theorem Question.holds_of_mem_allOf {questions : List Question} {e : RecordEntry} :
    ∀ {part : List Question}, (∀ q ∈ part, ∀ o ∈ q.entries, Holds questions o) →
      e ∈ Question.allEntriesOf part → Holds questions e
  | [], _, he => absurd he List.not_mem_nil
  | q :: part, h, he => by
    rw [Question.allEntriesOf] at he
    rcases List.mem_append.1 he with he | he
    · exact Question.holds_of_mem_allEntries (h q List.mem_cons_self) he
    · have hrest : ∀ p ∈ part, ∀ o ∈ p.entries, Holds questions o :=
        fun p hp => h p (List.mem_cons_of_mem _ hp)
      exact Question.holds_of_mem_allOf hrest he

end

theorem holds_of_mem_allEntriesOf {questions : List Question} {e : RecordEntry}
    (he : e ∈ Question.allEntriesOf questions) : Holds questions e :=
  Question.holds_of_mem_allOf (fun _ hq _ ho => .top hq ho) he

/-! ## Offers -/

/-- What fields offer: the ids of the reference fields, each with the step that it leads to. -/
def offersOf (fields : List Field) : List (String × String) :=
  fields.filterMap fun f => f.referenceTarget?.map (f.id, ·)

/-- How often fields offer a record. -/
def ChildRecord.timesOffered (r : ChildRecord) (fields : List Field) : Nat :=
  (offersOf fields).count (r.field, r.step)

theorem ChildRecord.timesOffered_cons (r : ChildRecord) (f : Field) (fields : List Field) :
    r.timesOffered (f :: fields) =
      (if f.id = r.field ∧ f.referenceTarget? = some r.step then 1 else 0) +
        r.timesOffered fields := by
  unfold timesOffered offersOf
  cases htarget : f.referenceTarget? with
  | none => simp [htarget]
  | some target =>
    rw [List.filterMap_cons_some (by rw [htarget]; rfl), List.count_cons, Nat.add_comm]
    simp

/-- The fields of all parent steps together, and those of every single step, offer each step under
an id at most once. -/
def Form.OffersOnce (f : Form) : Prop :=
  (offersOf (f.parents.flatMap (·.fields))).Nodup ∧ ∀ t ∈ f.steps, (offersOf t.fields).Nodup

instance (f : Form) : Decidable f.OffersOnce := inferInstanceAs (Decidable (_ ∧ _))

namespace Submission

variable {s : Submission} {f : Field} {owner : Option String} {questions : List Question}

section Counting

variable (hd : (s.data.records.map (·.id)).Nodup) {r : ChildRecord} (hr : r ∈ s.data.records)
  {u : Step} (hu : s.form.step? r.step = some u)

include hd in
theorem nodup_ids_owned (f : Field) (owner : Option String) :
    ((s.owned f owner).map (·.1.id)).Nodup := by
  have hsub := (owned_sublist s f owner).map (·.id)
  rw [List.map_map] at hsub
  exact hd.sublist hsub

include hd hr hu

theorem count_owned (f : Field) (owner : Option String) :
    ((s.owned f owner).map (·.1.id)).count r.id =
      if r.owner = owner ∧ f.id = r.field ∧ f.referenceTarget? = some r.step then 1 else 0 := by
  rw [(nodup_ids_owned hd f owner).count]
  refine if_congr ?_ rfl rfl
  rw [List.mem_map]
  constructor
  · rintro ⟨⟨r', t⟩, hmem, hid⟩
    obtain ⟨htarget, -, hr', hfield, howner⟩ := mem_owned.1 hmem
    obtain rfl := List.inj_on_of_nodup_map hd hr' hr hid
    exact ⟨howner, hfield.symm, htarget⟩
  · rintro ⟨howner, hid, htarget⟩
    exact ⟨(r, u), mem_owned.2 ⟨htarget, hu, hr, hid.symm, howner⟩, rfl⟩

/-- Directly below the questions of fields, a record has an entry for each time that they offer it
where it belongs. -/
theorem countId_entriesOf {fields : List Field}
    (h : questions.map (fun q => q.entries.map (·.id)) =
      fields.map fun f => (s.owned f owner).map (·.1.id)) :
    countId r.id (Question.entriesOf questions) =
      if r.owner = owner then r.timesOffered fields else 0 := by
  induction fields generalizing questions with
  | nil =>
    rw [List.map_eq_nil_iff.1 h]
    exact (ite_self 0).symm
  | cons f fields ih =>
    obtain ⟨q, questions, rfl, hq, hquestions⟩ := List.map_eq_cons_iff.1 h
    have hcons : Question.entriesOf (q :: questions) = q.entries ++ Question.entriesOf questions :=
      List.flatMap_cons
    rw [hcons, countId_append, ih hquestions, countId, hq, count_owned hd hr hu,
      ChildRecord.timesOffered_cons]
    by_cases howner : r.owner = owner
    · simp [howner]
    · simp [howner]

/-- What stands directly below an entry of a document. -/
theorem countId_entriesOf_holds (h : s.questions? = some questions) {e : RecordEntry}
    (he : Holds questions e) :
    ∃ o ∈ s.data.records, ∃ t, o.id = e.id ∧ s.form.step? o.step = some t ∧
      countId r.id (Question.entriesOf e.questions) =
        if r.owner = some e.id then r.timesOffered t.fields else 0 := by
  obtain ⟨o, t, ho, ht, hid, -, n, hquestions⟩ := exists_anchored_of_holds h he
  have hmap := map_eq_of_mapM (fun _ _ => map_id_entries) hquestions
  exact ⟨o, ho.mem, t, hid.symm, ht, hid ▸ countId_entriesOf hd hr hu hmap⟩

theorem occurrences_eq (h : s.questions? = some questions) :
    occurrences questions r.id =
      (if r.owner = none then r.timesOffered (s.form.parents.flatMap (·.fields)) else 0) +
        countBelow r.id (Question.allEntriesOf questions) := by
  have hmap := map_eq_of_mapM (fun _ _ => map_id_entries) (mapM_parentFields h)
  have hfields : s.form.parentFields.map (·.2) = s.form.parents.flatMap (·.fields) := by
    unfold Form.parentFields
    rw [List.map_flatMap]
    simp
  rw [occurrences, Question.countId_allEntriesOf, ← hfields]
  congr 1
  refine countId_entriesOf hd hr hu (hmap.trans ?_)
  rw [List.map_map]
  rfl

/-- A record outside others has an entry for each time that the fields of parent steps offer it. -/
theorem occurrences_free (h : s.questions? = some questions) (howner : r.owner = none) :
    occurrences questions r.id = r.timesOffered (s.form.parents.flatMap (·.fields)) := by
  have hbelow : countBelow r.id (Question.allEntriesOf questions) =
      countId r.id (Question.allEntriesOf questions) * 0 := by
    refine countBelow_eq_mul fun e he => ?_
    obtain ⟨o, -, t, -, -, hcount⟩ :=
      countId_entriesOf_holds hd hr hu h (holds_of_mem_allEntriesOf he)
    rw [hcount, howner, ite_self]
    rfl
  rw [occurrences_eq hd hr hu h, if_pos howner, hbelow, Nat.mul_zero, Nat.add_zero]

/-- A record inside another has, for each entry of its owner, one for each time that the fields of
the owner's step offer it. -/
theorem occurrences_owned (h : s.questions? = some questions) {o : ChildRecord}
    (ho : o ∈ s.data.records) (howner : r.owner = some o.id) {t : Step}
    (ht : s.form.step? o.step = some t) :
    occurrences questions r.id = occurrences questions o.id * r.timesOffered t.fields := by
  rw [occurrences_eq hd hr hu h, if_neg (by rw [howner]; exact Option.some_ne_none _), Nat.zero_add]
  refine countBelow_eq_mul fun e he => ?_
  obtain ⟨o', ho', t', hid, ht', hcount⟩ :=
    countId_entriesOf_holds hd hr hu h (holds_of_mem_allEntriesOf he)
  rw [hcount, howner]
  by_cases heq : e.id = o.id
  · obtain rfl := List.inj_on_of_nodup_map hd ho' ho (hid.trans heq)
    rw [ht] at ht'
    cases ht'
    rw [if_pos (by rw [heq]), if_pos heq]
  · rw [if_neg fun hsome => heq (Option.some.inj hsome).symm, if_neg heq]

end Counting

/-- No record has two entries when no two fields offer the same. -/
theorem occurrences_le_one (hd : (s.data.records.map (·.id)).Nodup)
    (h : s.questions? = some questions) (honce : s.form.OffersOnce) {r : ChildRecord}
    (hr : r ∈ s.data.records) : occurrences questions r.id ≤ 1 := by
  by_cases hanchored : s.data.Anchored s.form r
  · clear hr
    induction hanchored with
    | @free r t u hr hstep howner _ _ =>
      rw [occurrences_free hd hr hstep h howner]
      exact List.nodup_iff_count_le_one.1 honce.1 _
    | @owned o r t u ho hr hstep howner ht _ ih =>
      have hoffered : r.timesOffered t.fields ≤ 1 :=
        List.nodup_iff_count_le_one.1 (honce.2 t (Form.mem_of_step? ht).1) _
      rw [occurrences_owned hd hr hstep h ho.mem howner ht]
      exact Nat.mul_le_mul ih hoffered
  · have hnone : r.id ∉ (Question.allEntriesOf questions).map (·.id) := by
      intro hmem
      obtain ⟨e, he, hid⟩ := List.mem_map.1 hmem
      exact hanchored ((exists_holds_iff hd h hr).1 ⟨e, holds_of_mem_allEntriesOf he, hid⟩)
    rw [occurrences, countId, List.count_eq_zero.2 hnone]
    exact Nat.zero_le 1

end Submission
end Questionnaire
