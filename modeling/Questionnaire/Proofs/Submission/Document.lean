import Mathlib.Data.List.Forall2
import Questionnaire.Proofs.Session.Soundness
import Questionnaire.Submission.Document

/-
  What a submission document holds.

  `Anchored` says from the records alone which of them a parent step leads to, and `Founded` that
  none of those stands inside itself. Then the records around a place all differ (`nodup_line`), so
  there are enough levels of nesting and the document has an end (`exists_questions?_of_founded`), as
  it has while records differ in their ids (`exists_questions?`).

  Each record that a parent step leads to has an entry in the document (`holds_of_anchored`), whose
  questions answer with the record's values (`answers_of_mapM`), and no other record has one
  (`exists_anchored_of_holds`).
-/

namespace Questionnaire

open Relation

/-! ## Making several -/

section Several

variable {α β : Type} {f : α → Option β} {xs : List α} {ys : List β}

theorem exists_mapM (h : ∀ x ∈ xs, ∃ y, f x = some y) : ∃ ys, xs.mapM f = some ys := by
  induction xs with
  | nil => exact ⟨[], rfl⟩
  | cons x xs ih =>
    obtain ⟨y, hy⟩ := h x List.mem_cons_self
    obtain ⟨ys, hys⟩ := ih fun z hz => h z (List.mem_cons_of_mem _ hz)
    exact ⟨y :: ys, by simp [hy, hys]⟩

/-- Each result stands at the place of what it was made from. -/
theorem mapM_eq_some_iff :
    xs.mapM f = some ys ↔ List.Forall₂ (fun x y => f x = some y) xs ys := by
  induction xs generalizing ys with
  | nil =>
    rw [List.mapM_nil, List.forall₂_nil_left_iff]
    exact Option.some_inj.trans eq_comm
  | cons x xs ih =>
    simp only [List.mapM_cons, bind, Option.bind_eq_some_iff, ih, List.forall₂_cons_left_iff]
    constructor
    · rintro ⟨y, hy, rest, hrest, h⟩
      exact ⟨y, rest, hy, hrest, (Option.some.inj h).symm⟩
    · rintro ⟨y, rest, hy, hrest, rfl⟩
      exact ⟨y, hy, rest, hrest, rfl⟩

theorem of_mem_zip_of_mapM (h : xs.mapM f = some ys) {x : α} {y : β} (hxy : (x, y) ∈ xs.zip ys) :
    f x = some y :=
  List.forall₂_zip (mapM_eq_some_iff.1 h) hxy

theorem exists_mem_zip_of_mapM (h : xs.mapM f = some ys) {y : β} (hy : y ∈ ys) :
    ∃ x, (x, y) ∈ xs.zip ys := by
  have hlength := (mapM_eq_some_iff.1 h).length_eq
  rw [← List.map_snd_zip hlength.ge] at hy
  obtain ⟨⟨x, y⟩, hxy, rfl⟩ := List.mem_map.1 hy
  exact ⟨x, hxy⟩

theorem exists_source_of_mapM (h : xs.mapM f = some ys) {y : β} (hy : y ∈ ys) :
    ∃ x ∈ xs, f x = some y := by
  obtain ⟨x, hxy⟩ := exists_mem_zip_of_mapM h hy
  exact ⟨x, (List.of_mem_zip hxy).1, of_mem_zip_of_mapM h hxy⟩

theorem exists_mem_of_mapM (h : xs.mapM f = some ys) {x : α} (hx : x ∈ xs) :
    ∃ y ∈ ys, f x = some y := by
  have hlength := (mapM_eq_some_iff.1 h).length_eq
  rw [← List.map_fst_zip hlength.le] at hx
  obtain ⟨⟨x, y⟩, hxy, rfl⟩ := List.mem_map.1 hx
  exact ⟨y, (List.of_mem_zip hxy).2, of_mem_zip_of_mapM h hxy⟩

theorem mapM_of_imp {g : α → Option β} (hfg : ∀ x y, f x = some y → g x = some y)
    (h : xs.mapM f = some ys) : xs.mapM g = some ys :=
  mapM_eq_some_iff.2 ((mapM_eq_some_iff.1 h).imp hfg)

/-- What can be told of each result from its source can be told of all of them in order. -/
theorem map_eq_of_mapM {γ : Type} {g : β → γ} {k : α → γ}
    (hgk : ∀ x y, f x = some y → g y = k x) (h : xs.mapM f = some ys) :
    ys.map g = xs.map k := by
  have hpairs : List.Forall₂ (fun x y => k x = g y) xs ys :=
    (mapM_eq_some_iff.1 h).imp fun x y hxy => (hgk x y hxy).symm
  rw [eq_comm, ← List.forall₂_eq_eq_eq, List.forall₂_map_left_iff, List.forall₂_map_right_iff]
  exact hpairs

end Several

namespace FormData

/-! ## Records that a parent step leads to -/

/-- A record that a parent step leads to, through its owners if it has any. -/
inductive Anchored (f : Form) (d : FormData) : ChildRecord → Prop
  | free {r t u} (hr : r ∈ d.records) (hstep : f.step? r.step = some u) (howner : r.owner = none)
      (ht : t ∈ f.parents) (hoffers : t.Offers r.field r.step) : Anchored f d r
  | owned {o r t u} (ho : Anchored f d o) (hr : r ∈ d.records) (hstep : f.step? r.step = some u)
      (howner : r.owner = some o.id) (ht : f.step? o.step = some t)
      (hoffers : t.Offers r.field r.step) : Anchored f d r

theorem Anchored.mem {f : Form} {d : FormData} {r : ChildRecord} (h : d.Anchored f r) :
    r ∈ d.records := by
  cases h <;> assumption

/-! ## Records inside others -/

/-- A record stands directly inside another, which owns it through a field of its step. -/
def Nests (f : Form) (d : FormData) (o r : ChildRecord) : Prop :=
  r ∈ d.records ∧ (∃ u, f.step? r.step = some u) ∧ r.owner = some o.id ∧
    ∃ t, f.step? o.step = some t ∧ t.Offers r.field r.step

/-- No record that a parent step leads to stands inside itself. -/
def Founded (f : Form) (d : FormData) : Prop :=
  ∀ r, d.Anchored f r → ¬ TransGen (d.Nests f) r r

variable {f : Form} {d : FormData}

theorem Anchored.nested {o r : ChildRecord} (ho : d.Anchored f o) (h : d.Nests f o r) :
    d.Anchored f r := by
  obtain ⟨hr, ⟨u, hu⟩, howner, t, ht, hoffers⟩ := h
  exact .owned ho hr hu howner ht hoffers

/-- The records around a place, innermost first, each standing directly inside the next one; a
parent step leads to all of them. -/
structure Line (f : Form) (d : FormData) (path : List ChildRecord) : Prop where
  nested : path.IsChain fun r o => d.Nests f o r
  anchored : ∀ r ∈ path, d.Anchored f r

theorem Line.transGen {path : List ChildRecord} (h : d.Line f path) :
    path.Pairwise fun r o => TransGen (d.Nests f) o r := by
  have hchain : path.IsChain fun r o => TransGen (d.Nests f) o r :=
    h.nested.imp fun _ _ hnests => .single hnests
  have : IsTrans ChildRecord fun r o => TransGen (d.Nests f) o r := ⟨fun _ _ _ h h' => h'.trans h⟩
  exact List.isChain_iff_pairwise.1 hchain

theorem nodup_line (hd : d.Founded f) {path : List ChildRecord} (h : d.Line f path) :
    path.Nodup := by
  refine h.transGen.imp_of_mem fun {r o} hr _ hinside heq => ?_
  subst heq
  exact hd r (h.anchored r hr) hinside

theorem length_line_le (hd : d.Founded f) {path : List ChildRecord} (h : d.Line f path) :
    path.length ≤ d.records.length := by
  have hsub : path ⊆ d.records := fun r hr => (h.anchored r hr).mem
  exact ((nodup_line hd h).subperm hsub).length_le

theorem Line.cons {path : List ChildRecord} (h : d.Line f path) {r : ChildRecord}
    (hr : d.Anchored f r) (hnests : ∀ o ∈ path.head?, d.Nests f o r) : d.Line f (r :: path) := by
  refine ⟨?_, fun x hx => ?_⟩
  · cases path with
    | nil => exact .singleton _
    | cons o path => exact .cons_cons (hnests o rfl) h.nested
  · rcases List.mem_cons.1 hx with rfl | hx
    · exact hr
    · exact h.anchored x hx

/-- No record stands inside itself while records differ in their ids. -/
theorem founded_of_nodup (hd : (d.records.map (·.id)).Nodup) : d.Founded f := by
  intro r hr
  induction hr with
  | @free r _ _ _ _ howner =>
    intro hinside
    obtain ⟨o, -, -, -, howner', -⟩ := TransGen.tail'_iff.1 hinside
    rw [howner] at howner'
    cases howner'
  | @owned o r _ _ ho hr _ howner _ _ ih =>
    intro hinside
    obtain ⟨o', hreach, hnests⟩ := TransGen.tail'_iff.1 hinside
    have ho' : o' ∈ d.records := by
      rcases hreach.cases_tail with rfl | ⟨_, -, hlast⟩
      · exact hr
      · exact hlast.1
    -- The way around the record leads through its owner, which is thus inside itself.
    have hid : o'.id = o.id := Option.some.inj (hnests.2.2.1.symm.trans howner)
    obtain rfl := List.inj_on_of_nodup_map hd ho' ho.mem hid
    exact ih (.head' hnests hreach)

end FormData

/-! ## Questions and entries -/

/-- Some question answers with each of the values, under its field. -/
def Answers (questions : List Question) (values : Values) : Prop :=
  ∀ k v, values.get? k = some v → ∃ q ∈ questions, q.id = k ∧ q.answer = some v

/-- An entry is that of a record and answers with all its values. -/
def RecordEntry.Carries (e : RecordEntry) (r : ChildRecord) : Prop :=
  e.id = r.id ∧ e.step = r.step ∧ Answers e.questions r.values

/-- An entry stands below questions, at any depth. -/
inductive Holds (questions : List Question) : RecordEntry → Prop
  | top {q e} (hq : q ∈ questions) (he : e ∈ q.entries) : Holds questions e
  | deeper {e q e'} (h : Holds questions e) (hq : q ∈ e.questions) (he : e' ∈ q.entries) :
      Holds questions e'

namespace Submission

variable {s : Submission} {f : Field} {owner : Option String} {n : Nat} {values : Values}

theorem mem_owned {r : ChildRecord} {t : Step} :
    (r, t) ∈ s.owned f owner ↔ f.referenceTarget? = some r.step ∧ s.form.step? r.step = some t ∧
      r ∈ s.data.records ∧ r.field = f.id ∧ r.owner = owner := by
  unfold owned
  split
  · next h => simp [h]
  · next target h =>
    split
    · next ht =>
      simp only [List.not_mem_nil, h, Option.some.injEq, false_iff]
      rintro ⟨rfl, hu, -⟩
      rw [ht] at hu
      cases hu
    · next u hu =>
      simp only [FormData.recordsOf, List.mem_map, List.mem_filter, Bool.and_eq_true,
        decide_eq_true_eq, Prod.mk.injEq, h, Option.some.injEq]
      constructor
      · rintro ⟨_, ⟨⟨hr, hfield, howner⟩, rfl⟩, rfl, rfl⟩
        exact ⟨rfl, hu, hr, hfield, howner⟩
      · rintro ⟨rfl, ht, hr, hfield, howner⟩
        rw [hu] at ht
        cases ht
        exact ⟨r, ⟨⟨hr, hfield, howner⟩, rfl⟩, rfl, rfl⟩

/-- The entry of a record, with records nested up to `n` times below its questions. -/
def entry (s : Submission) (n : Nat) (rt : ChildRecord × Step) : Option RecordEntry :=
  (rt.2.fields.mapM (s.question n (some rt.1.id) rt.1.values)).map (.mk rt.1.id rt.1.step)

theorem question_zero_eq_some {q : Question} : s.question 0 owner values f = some q ↔
    s.owned f owner = [] ∧
      q = .mk f.id (f.displayLabel s.language) f.kind (values.get? f.id) [] := by
  rw [question, ← List.isEmpty_iff]
  split
  · next h => simp [h, eq_comm]
  · next h => simp [h]

theorem question_succ_eq_some {q : Question} : s.question (n + 1) owner values f = some q ↔
    ∃ entries, (s.owned f owner).mapM (s.entry n) = some entries ∧
      q = .mk f.id (f.displayLabel s.language) f.kind (values.get? f.id) entries := by
  rw [question]
  refine Option.bind_eq_some_iff.trans (exists_congr fun entries => and_congr Iff.rfl ?_)
  exact Option.some_inj.trans eq_comm

/-- An entry is that of a record of a step. -/
def IsEntryOf (s : Submission) (r : ChildRecord) (t : Step) (e : RecordEntry) : Prop :=
  e.id = r.id ∧ e.step = r.step ∧
    ∃ n, t.fields.mapM (s.question n (some r.id) r.values) = some e.questions

theorem isEntryOf_of_entry {r : ChildRecord} {t : Step} {e : RecordEntry}
    (h : s.entry n (r, t) = some e) : s.IsEntryOf r t e := by
  obtain ⟨questions, hquestions, rfl⟩ := Option.map_eq_some_iff.1 h
  exact ⟨rfl, rfl, n, hquestions⟩

/-- The question of a field answers with its value and has entries for the records that the field
owns. -/
theorem question_spec {q : Question} (h : s.question n owner values f = some q) :
    q.id = f.id ∧ q.answer = values.get? f.id ∧
      (∀ r t, (r, t) ∈ s.owned f owner → ∃ e ∈ q.entries, s.IsEntryOf r t e) ∧
      ∀ e ∈ q.entries, ∃ r t, (r, t) ∈ s.owned f owner ∧ s.IsEntryOf r t e := by
  cases n with
  | zero =>
    obtain ⟨hempty, rfl⟩ := question_zero_eq_some.1 h
    rw [hempty]
    exact ⟨rfl, rfl, fun r t hrt => absurd hrt List.not_mem_nil,
      fun e he => absurd he List.not_mem_nil⟩
  | succ n =>
    obtain ⟨entries, hentries, rfl⟩ := question_succ_eq_some.1 h
    refine ⟨rfl, rfl, fun r t hrt => ?_, fun e he => ?_⟩
    · obtain ⟨e, he, hmake⟩ := exists_mem_of_mapM hentries hrt
      exact ⟨e, he, isEntryOf_of_entry hmake⟩
    · obtain ⟨⟨r, t⟩, hrt, hmake⟩ := exists_source_of_mapM hentries he
      exact ⟨r, t, hrt, isEntryOf_of_entry hmake⟩

theorem answers_of_mapM {t : Step} {questions : List Question}
    (h : t.fields.mapM (s.question n owner values) = some questions)
    (hvalues : ∀ k, values.contains k → t.HasField k) : Answers questions values := by
  intro k v hv
  obtain ⟨f, hf, rfl⟩ := hvalues k (by rw [SortedMap.contains, hv]; rfl)
  obtain ⟨q, hq, hmake⟩ := exists_mem_of_mapM h hf
  obtain ⟨hid, hanswer, -⟩ := question_spec hmake
  exact ⟨q, hq, hid, hanswer.trans hv⟩

/-! ## The document has an end -/

/-- A question may stand below a line of records: outside all records it is one of a parent step,
else one of the innermost record's step. -/
def MayAsk (s : Submission) (f : Field) : List ChildRecord → Prop
  | [] => ∃ t ∈ s.form.parents, f ∈ t.fields
  | r :: _ => ∃ t, s.form.step? r.step = some t ∧ f ∈ t.fields

/-- A record below a question prolongs the line of records around it. -/
theorem line_owned {path : List ChildRecord} (hline : s.data.Line s.form path)
    (hask : s.MayAsk f path) {r : ChildRecord} {t : Step}
    (h : (r, t) ∈ s.owned f (path.head?.map (·.id))) : s.data.Line s.form (r :: path) := by
  obtain ⟨htarget, hstep, hr, hfield, howner⟩ := mem_owned.1 h
  cases path with
  | nil =>
    obtain ⟨u, hu, hf⟩ := hask
    have hanchored : s.data.Anchored s.form r :=
      .free hr hstep howner hu ⟨f, hf, hfield.symm, htarget⟩
    exact hline.cons hanchored fun o ho => absurd ho (by simp)
  | cons o path =>
    obtain ⟨u, hu, hf⟩ := hask
    have hnests : s.data.Nests s.form o r :=
      ⟨hr, ⟨t, hstep⟩, howner, u, hu, f, hf, hfield.symm, htarget⟩
    have ho : s.data.Anchored s.form o := hline.anchored o List.mem_cons_self
    exact hline.cons (ho.nested hnests) fun o' ho' => Option.some.inj ho' ▸ hnests

/-- There are as many levels as there are records, and those on a line differ. -/
theorem exists_question_of_founded (hd : s.data.Founded s.form) {path : List ChildRecord}
    (hline : s.data.Line s.form path) (hn : path.length + n = s.data.records.length)
    (hask : s.MayAsk f path) (values : Values) :
    ∃ q, s.question n (path.head?.map (·.id)) values f = some q := by
  induction n generalizing path values f with
  | zero =>
    -- The line holds all records already, so none is left to be owned here.
    have hempty : s.owned f (path.head?.map (·.id)) = [] := by
      refine List.eq_nil_iff_forall_not_mem.2 fun ⟨r, t⟩ h => ?_
      have hle := FormData.length_line_le hd (line_owned hline hask h)
      rw [List.length_cons] at hle
      omega
    exact ⟨_, question_zero_eq_some.2 ⟨hempty, rfl⟩⟩
  | succ n ih =>
    obtain ⟨entries, hentries⟩ :
        ∃ entries, (s.owned f (path.head?.map (·.id))).mapM (s.entry n) = some entries := by
      refine exists_mapM fun ⟨r, t⟩ h => ?_
      have hlength : (r :: path).length + n = s.data.records.length := by
        rw [List.length_cons]
        omega
      obtain ⟨questions, hquestions⟩ : ∃ questions,
          t.fields.mapM (s.question n (some r.id) r.values) = some questions :=
        exists_mapM fun g hg =>
          ih (line_owned hline hask h) hlength ⟨t, (mem_owned.1 h).2.1, hg⟩ r.values
      exact ⟨.mk r.id r.step questions, by rw [entry, hquestions]; rfl⟩
    exact ⟨_, question_succ_eq_some.2 ⟨entries, hentries, rfl⟩⟩

theorem exists_questions?_of_founded (hd : s.data.Founded s.form) :
    ∃ questions, s.questions? = some questions := by
  obtain ⟨parts, hparts⟩ : ∃ parts, s.form.parents.mapM s.ofStep = some parts :=
    exists_mapM fun t ht => exists_mapM fun f hf =>
      exists_question_of_founded hd ⟨.nil, fun r hr => absurd hr List.not_mem_nil⟩
        (Nat.zero_add _) ⟨t, ht, hf⟩ _
  exact ⟨parts.flatten, by rw [questions?, hparts]; rfl⟩

/-- A document has an end when records differ in their ids. -/
theorem exists_questions? (hd : (s.data.records.map (·.id)).Nodup) :
    ∃ questions, s.questions? = some questions :=
  exists_questions?_of_founded (FormData.founded_of_nodup hd)

/-! ## What a document holds -/

variable {questions : List Question}

/-- The questions of a parent step stand together in the document. -/
theorem exists_part (h : s.questions? = some questions) {t : Step} (ht : t ∈ s.form.parents) :
    ∃ part, s.ofStep t = some part ∧ part <:+: questions := by
  obtain ⟨parts, hparts, rfl⟩ := Option.map_eq_some_iff.1 h
  obtain ⟨part, hpart, hof⟩ := exists_mem_of_mapM hparts ht
  exact ⟨part, hof, List.infix_of_mem_flatten hpart⟩

/-- A record that a parent step leads to has an entry. -/
theorem holds_of_anchored (h : s.questions? = some questions) {r : ChildRecord}
    (hr : s.data.Anchored s.form r) :
    ∃ e t, Holds questions e ∧ s.form.step? r.step = some t ∧ s.IsEntryOf r t e := by
  induction hr with
  | @free r t u hr hstep howner ht hoffers =>
    obtain ⟨f, hf, hid, htarget⟩ := hoffers
    obtain ⟨part, hpart, hthere⟩ := exists_part h ht
    obtain ⟨q, hq, hmake⟩ := exists_mem_of_mapM hpart hf
    obtain ⟨-, -, hentries, -⟩ := question_spec hmake
    obtain ⟨e, he, hof⟩ := hentries r u (mem_owned.2 ⟨htarget, hstep, hr, hid.symm, howner⟩)
    exact ⟨e, u, .top (hthere.subset hq) he, hstep, hof⟩
  | @owned o r t u _ hr hstep howner ht hoffers ih =>
    obtain ⟨f, hf, hid, htarget⟩ := hoffers
    obtain ⟨e, t', hholds, ht', -, -, m, hquestions⟩ := ih
    rw [ht] at ht'
    cases ht'
    obtain ⟨q, hq, hmake⟩ := exists_mem_of_mapM hquestions hf
    obtain ⟨-, -, hentries, -⟩ := question_spec hmake
    obtain ⟨e', he', hof⟩ := hentries r u (mem_owned.2 ⟨htarget, hstep, hr, hid.symm, howner⟩)
    exact ⟨e', u, .deeper hholds hq he', hstep, hof⟩

/-- Every entry is that of a record that a parent step leads to. -/
theorem exists_anchored_of_holds (h : s.questions? = some questions) {e : RecordEntry}
    (he : Holds questions e) :
    ∃ r t, s.data.Anchored s.form r ∧ s.form.step? r.step = some t ∧ s.IsEntryOf r t e := by
  induction he with
  | @top q e hq he =>
    obtain ⟨parts, hparts, rfl⟩ := Option.map_eq_some_iff.1 h
    obtain ⟨part, hpart, hq⟩ := List.mem_flatten.1 hq
    obtain ⟨t, ht, hof⟩ := exists_source_of_mapM hparts hpart
    obtain ⟨f, hf, hmake⟩ := exists_source_of_mapM hof hq
    obtain ⟨-, -, -, hentries⟩ := question_spec hmake
    obtain ⟨r, u, hrt, hentry⟩ := hentries e he
    obtain ⟨htarget, hstep, hr, hfield, howner⟩ := mem_owned.1 hrt
    exact ⟨r, u, .free hr hstep howner ht ⟨f, hf, hfield.symm, htarget⟩, hstep, hentry⟩
  | @deeper e q e' _ hq he ih =>
    obtain ⟨o, t, ho, ht, -, -, m, hquestions⟩ := ih
    obtain ⟨f, hf, hmake⟩ := exists_source_of_mapM hquestions hq
    obtain ⟨-, -, -, hentries⟩ := question_spec hmake
    obtain ⟨r, u, hrt, hentry⟩ := hentries e' he
    obtain ⟨htarget, hstep, hr, hfield, howner⟩ := mem_owned.1 hrt
    exact ⟨r, u, .owned ho hr hstep howner ht ⟨f, hf, hfield.symm, htarget⟩, hstep, hentry⟩

end Submission
end Questionnaire
