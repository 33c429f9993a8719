import Questionnaire.Proofs.Session.Soundness

/-
  The records nested in a record.

  `NestedIn` follows owners through any number of records; `nested` lists exactly those ids
  (`mem_nested_iff`), whatever the records are. So removing a record is leaving out all ids nested
  in it (`removeRecord_eq_without`), and taking back several records is leaving out all ids nested
  in one of them (`rollBack_eq_without`).

  `collect` looks for nested records with a queue and remembers nothing of what it has seen: on
  records that own each other in a circle it has no end. Where every owner stands before what it
  owns, no id comes into the queue twice (`Collected`), so there is an end after one look-up for
  each nested record (`exists_collect`).
-/

namespace Questionnaire
namespace FormData

/-! ## Nesting -/

/-- An id is that of a record inside a root, through any number of owners, or the root itself. -/
inductive NestedIn (d : FormData) (root : String) : String → Prop
  | self : NestedIn d root root
  | owned {r p} (hp : NestedIn d root p) (hr : r ∈ d.records) (howner : r.owner = some p) :
      NestedIn d root r.id

theorem nestedIn_of_mem_withOwned {d : FormData} {root : String} {n : Nat} {ids : List String}
    (hids : ∀ id ∈ ids, d.NestedIn root id) {id : String} (h : id ∈ withOwned d.records n ids) :
    d.NestedIn root id := by
  induction n generalizing ids with
  | zero => exact hids id h
  | succ n ih =>
    refine ih (fun x hx => ?_) h
    rcases List.mem_append.1 hx with hx | hx
    · exact hids x hx
    · obtain ⟨⟨r, hr, ⟨p, hp, howner⟩, rfl⟩, -⟩ := mem_added.1 hx
      exact .owned (hids p hp) hr howner

/-- The ids nested in a root are those that as many rounds as there are records find. -/
theorem mem_nested_iff {d : FormData} {root id : String} :
    id ∈ d.nested root ↔ d.NestedIn root id := by
  constructor
  · refine nestedIn_of_mem_withOwned fun x hx => ?_
    rw [List.mem_singleton.1 hx]
    exact .self
  · intro h
    induction h with
    | self => exact self_mem_nested d root
    | owned _ hr howner ih => exact closed_nested d root _ hr _ ih howner

instance (d : FormData) (root : String) : DecidablePred (d.NestedIn root) := fun _ =>
  decidable_of_iff _ mem_nested_iff

/-! ## Leaving records out -/

/-- The answers without the records of some ids; the other records keep their order. -/
def without (d : FormData) (gone : String → Prop) [DecidablePred gone] : FormData :=
  { d with records := d.records.filter fun r => ¬ gone r.id }

section Without

variable {d : FormData} {gone : String → Prop} [DecidablePred gone]

theorem mem_without {r : ChildRecord} :
    r ∈ (d.without gone).records ↔ r ∈ d.records ∧ ¬ gone r.id := by
  simp [without]

theorem without_without (other : String → Prop) [DecidablePred other] :
    (d.without gone).without other = d.without fun id => gone id ∨ other id := by
  simp only [without, List.filter_filter]
  congr 2
  funext r
  by_cases hgone : gone r.id <;> simp [hgone]

theorem without_congr {other : String → Prop} [DecidablePred other]
    (h : ∀ r ∈ d.records, gone r.id ↔ other r.id) : d.without gone = d.without other := by
  unfold without
  congr 1
  exact List.filter_congr fun r hr => by simp [h r hr]

/-- Removing a record leaves out all ids nested in it. -/
theorem removeRecord_eq_without (d : FormData) (id : String) :
    d.removeRecord id = d.without (d.NestedIn id) := by
  have hfilter : d.records.filter (fun r => !(d.nested id).contains r.id) =
      d.records.filter fun r => ¬ d.NestedIn id r.id :=
    List.filter_congr fun r _ => by simp [mem_nested_iff]
  exact congrArg (fun records => { d with records }) hfilter

/-- Where removing takes nothing away, it changes nothing. -/
theorem removeRecord_of_removed_eq_nil {id : String} (h : d.removed id = []) :
    d.removeRecord id = d := by
  have hfilter : d.records.filter (fun r => !(d.nested id).contains r.id) = d.records := by
    refine List.filter_eq_self.2 fun r hr => ?_
    have := List.filter_eq_nil_iff.1 h r hr
    simpa using this
  exact congrArg (fun records => { d with records }) hfilter

/-- What stays is nested as before when every record goes whose owner goes. -/
theorem nestedIn_without_iff
    (hclosed : ∀ r ∈ d.records, ∀ p, r.owner = some p → gone p → gone r.id) {root id : String}
    (hid : ¬ gone id) : (d.without gone).NestedIn root id ↔ d.NestedIn root id := by
  constructor
  · intro h
    clear hid
    induction h with
    | self => exact .self
    | owned _ hr howner ih => exact .owned ih (mem_without.1 hr).1 howner
  · intro h
    induction h with
    | self => exact .self
    | owned _ hr howner ih =>
      have hp : ¬ gone _ := fun hp => hid (hclosed _ hr _ howner hp)
      exact .owned (ih hp) (mem_without.2 ⟨hr, hid⟩) howner

end Without

/-- An id nested in a record that is still being made. -/
def Unfinished (d : FormData) (active : List ActiveRecord) (id : String) : Prop :=
  ∃ a ∈ active, a.created = true ∧ d.NestedIn a.id id

instance (d : FormData) (active : List ActiveRecord) : DecidablePred (d.Unfinished active) :=
  fun _ => inferInstanceAs (Decidable (∃ a ∈ active, _))

theorem unfinished_cons {d : FormData} {a : ActiveRecord} {active : List ActiveRecord}
    {id : String} : d.Unfinished (a :: active) id ↔
      (a.created = true ∧ d.NestedIn a.id id) ∨ d.Unfinished active id := by
  simp [Unfinished]

theorem closed_unfinished (d : FormData) (active : List ActiveRecord) :
    ∀ r ∈ d.records, ∀ p, r.owner = some p → d.Unfinished active p → d.Unfinished active r.id := by
  rintro r hr p howner ⟨a, ha, hcreated, hp⟩
  exact ⟨a, ha, hcreated, .owned hp hr howner⟩

/-- Taking back the records that are being made, one after another, leaves out all ids nested in
one of them. -/
theorem rollBack_eq_without (d : FormData) (active : List ActiveRecord) :
    Session.rollBack d active = d.without (d.Unfinished active) := by
  induction active with
  | nil =>
    have hfilter : d.records.filter (fun r => decide ¬ d.Unfinished [] r.id) = d.records :=
      List.filter_eq_self.2 fun r _ => by simp [Unfinished]
    rw [without, hfilter]
    rfl
  | cons a active ih =>
    rw [Session.rollBack, List.foldr_cons]
    show (if a.created then (Session.rollBack d active).removeRecord a.id
      else Session.rollBack d active) = _
    rw [ih]
    split
    · next hcreated =>
      rw [removeRecord_eq_without, without_without]
      refine without_congr fun r _ => ?_
      rw [unfinished_cons]
      by_cases hr : d.Unfinished active r.id
      · exact iff_of_true (.inl hr) (.inr hr)
      · rw [nestedIn_without_iff (closed_unfinished d active) hr]
        simp [hcreated, or_comm]
    · next hcreated =>
      refine without_congr fun r _ => ?_
      simp [unfinished_cons, hcreated]

/-! ## Nesting where owners come first -/

section Linked

variable {form : Form} {d : FormData}

theorem eq_of_id_eq (hd : d.Linked form) {r r' : ChildRecord} (hr : r ∈ d.records)
    (hr' : r' ∈ d.records) (h : r.id = r'.id) : r = r' :=
  List.inj_on_of_nodup_map hd.distinct hr hr' h

/-- Nothing that stands before a record is nested in it. -/
theorem not_nestedIn_of_before (hd : d.Linked form) {before after : List ChildRecord}
    {r o : ChildRecord} (hsplit : d.records = before ++ r :: after) (ho : o ∈ before) :
    ¬ d.NestedIn r.id o.id := by
  intro h
  generalize hid : o.id = id at h
  induction h generalizing o with
  | self =>
    have hdistinct := hd.distinct
    rw [hsplit, List.map_append, List.nodup_append] at hdistinct
    exact hdistinct.2.2 o.id (List.mem_map_of_mem ho) r.id (by simp) hid
  | @owned r' p _ hr' howner ih =>
    have hmem : o ∈ d.records := hsplit ▸ List.mem_append_left _ ho
    obtain rfl := eq_of_id_eq hd hmem hr' hid
    -- The owner stands even further before.
    obtain ⟨first, more, rfl⟩ := List.append_of_mem ho
    have hsplit' : d.records = first ++ o :: (more ++ r :: after) := by
      rw [hsplit, List.append_assoc, List.cons_append]
    obtain ⟨q, hq, hqid, -⟩ := hd.owned first o _ hsplit' p howner
    exact ih (List.mem_append_left _ hq) hqid

/-- An owner is not nested in what it owns. -/
theorem not_nestedIn_of_owner (hd : d.Linked form) {r : ChildRecord} (hr : r ∈ d.records)
    {p : String} (howner : r.owner = some p) : ¬ d.NestedIn r.id p := by
  obtain ⟨before, after, hsplit⟩ := List.append_of_mem hr
  obtain ⟨o, ho, rfl, -⟩ := hd.owned before r after hsplit p howner
  exact not_nestedIn_of_before hd hsplit ho

/-- Nothing is nested in an id that no record has. -/
theorem not_nestedIn_of_unknown (hd : d.Linked form) {id : String}
    (hid : ∀ r ∈ d.records, r.id ≠ id) {r : ChildRecord} (hr : r ∈ d.records) :
    ¬ d.NestedIn id r.id := by
  intro h
  generalize hx : r.id = x at h
  induction h generalizing r with
  | self => exact hid r hr hx
  | owned _ hr' howner ih =>
    obtain ⟨before, after, hsplit⟩ := List.append_of_mem hr'
    obtain ⟨o, ho, hoid, -⟩ := hd.owned before _ after hsplit _ howner
    exact ih (hsplit ▸ List.mem_append_left _ ho) hoid

/-- Removing takes away nothing exactly when there is no record with the id. -/
theorem removed_eq_nil_iff (hd : d.Linked form) {id : String} :
    d.removed id = [] ↔ ∀ r ∈ d.records, r.id ≠ id := by
  rw [List.eq_nil_iff_forall_not_mem]
  constructor
  · rintro h r hr rfl
    exact h r (mem_removed.2 ⟨hr, self_mem_nested d r.id⟩)
  · intro h r hr
    obtain ⟨hmem, hnested⟩ := mem_removed.1 hr
    exact not_nestedIn_of_unknown hd h hmem (mem_nested_iff.1 hnested)

/-- Of the records that removing one takes away, the first is that one. -/
theorem exists_removed_eq_cons (hd : d.Linked form) {r : ChildRecord} (hr : r ∈ d.records) :
    ∃ more, d.removed r.id = r :: more := by
  obtain ⟨before, after, hsplit⟩ := List.append_of_mem hr
  have hbefore : before.filter (fun o => (d.nested r.id).contains o.id) = [] := by
    refine List.filter_eq_nil_iff.2 fun o ho => ?_
    have := not_nestedIn_of_before hd hsplit ho
    simpa [mem_nested_iff] using this
  refine ⟨after.filter fun o => (d.nested r.id).contains o.id, ?_⟩
  rw [removed, hsplit, List.filter_append, hbefore, List.filter_cons]
  simp [self_mem_nested]

/-! ## Looking for nested records with a queue -/

/-- The ids of the records that one record owns. -/
def ownedIds (d : FormData) (id : String) : List String :=
  (d.records.filter fun r => r.owner = some id).map (·.id)

/-- The ids nested in those of a queue. The ids in `done` were looked up before; each look-up puts
the ids of what is owned at the end of the queue. It is given up after `n` look-ups. -/
def collect (d : FormData) : Nat → List String → List String → Option (List String)
  | _, done, [] => some done
  | 0, _, _ :: _ => none
  | n + 1, done, id :: queue => d.collect n (done ++ [id]) (queue ++ d.ownedIds id)

theorem mem_ownedIds {id x : String} :
    x ∈ d.ownedIds id ↔ ∃ r ∈ d.records, r.owner = some id ∧ r.id = x := by
  simp [ownedIds, and_assoc]

/-- What the search for the ids nested in a root keeps from one look-up to the next. -/
structure Collected (d : FormData) (root : String) (done queue : List String) : Prop where
  root_mem : root ∈ done ++ queue
  nested : ∀ id ∈ done ++ queue, d.NestedIn root id
  /-- An id other than the root came into the queue when its owner was looked up. -/
  source : ∀ id ∈ done ++ queue, id = root ∨ ∃ p ∈ done, id ∈ d.ownedIds p
  owned : ∀ p ∈ done, ∀ id ∈ d.ownedIds p, id ∈ done ++ queue
  /-- No id comes into the queue twice. -/
  nodup : (done ++ queue).Nodup

theorem collected_start (d : FormData) (root : String) : d.Collected root [] [root] where
  root_mem := List.mem_singleton_self root
  nested id hid := by rw [List.mem_singleton.1 hid]; exact .self
  source id hid := .inl (List.mem_singleton.1 hid)
  owned p hp := absurd hp List.not_mem_nil
  nodup := List.nodup_singleton root

/-- A look-up finds only ids that never were in the queue. -/
theorem not_mem_of_mem_ownedIds (hd : d.Linked form) {root id x : String}
    {done queue : List String} (h : d.Collected root done (id :: queue)) (hx : x ∈ d.ownedIds id) :
    x ∉ done ++ id :: queue := by
  obtain ⟨r, hr, howner, rfl⟩ := mem_ownedIds.1 hx
  have hid : d.NestedIn root id := h.nested id (by simp)
  intro hmem
  rcases h.source r.id hmem with rfl | ⟨p, hp, hpx⟩
  · exact not_nestedIn_of_owner hd hr howner hid
  · obtain ⟨r', hr', howner', hid'⟩ := mem_ownedIds.1 hpx
    obtain rfl := eq_of_id_eq hd hr' hr hid'
    obtain rfl : p = id := Option.some.inj (howner'.symm.trans howner)
    exact (List.nodup_append.1 h.nodup).2.2 p hp p List.mem_cons_self rfl

theorem collected_step (hd : d.Linked form) {root id : String} {done queue : List String}
    (h : d.Collected root done (id :: queue)) :
    d.Collected root (done ++ [id]) (queue ++ d.ownedIds id) := by
  have hall : done ++ [id] ++ (queue ++ d.ownedIds id) =
      (done ++ id :: queue) ++ d.ownedIds id := by simp
  refine ⟨?_, ?_, ?_, ?_, ?_⟩
  · rw [hall]
    exact List.mem_append_left _ h.root_mem
  · intro x hx
    rw [hall] at hx
    rcases List.mem_append.1 hx with hx | hx
    · exact h.nested x hx
    · obtain ⟨r, hr, howner, rfl⟩ := mem_ownedIds.1 hx
      exact .owned (h.nested id (by simp)) hr howner
  · intro x hx
    rw [hall] at hx
    rcases List.mem_append.1 hx with hx | hx
    · rcases h.source x hx with hroot | ⟨p, hp, hpx⟩
      · exact .inl hroot
      · exact .inr ⟨p, List.mem_append_left _ hp, hpx⟩
    · exact .inr ⟨id, by simp, hx⟩
  · intro p hp x hx
    rw [hall]
    rcases List.mem_append.1 hp with hp | hp
    · exact List.mem_append_left _ (h.owned p hp x hx)
    · rw [List.mem_singleton.1 hp] at hx
      exact List.mem_append_right _ hx
  · rw [hall, List.nodup_append]
    refine ⟨h.nodup, hd.distinct.sublist (List.filter_sublist.map _), fun x hx y hy heq => ?_⟩
    exact not_mem_of_mem_ownedIds hd h (heq ▸ hy) hx

theorem Collected.length_le {root : String} {done queue : List String}
    (h : d.Collected root done queue) : (done ++ queue).length ≤ d.records.length + 1 := by
  have hsub : done ++ queue ⊆ root :: d.records.map (·.id) := by
    intro id hid
    rcases h.source id hid with rfl | ⟨p, -, hp⟩
    · exact List.mem_cons_self
    · obtain ⟨r, hr, -, rfl⟩ := mem_ownedIds.1 hp
      exact List.mem_cons_of_mem _ (List.mem_map_of_mem hr)
  simpa using (h.nodup.subperm hsub).length_le

theorem collect_of_collected (hd : d.Linked form) {root : String} {n : Nat}
    {done queue : List String} (h : d.Collected root done queue)
    (hn : d.records.length + 1 ≤ done.length + n) :
    ∃ found, d.collect n done queue = some found ∧ d.Collected root found [] := by
  induction n generalizing done queue with
  | zero =>
    have hle := h.length_le
    rw [List.length_append] at hle
    obtain rfl : queue = [] := List.length_eq_zero_iff.1 (by omega)
    exact ⟨done, by rw [collect], h⟩
  | succ n ih =>
    cases queue with
    | nil => exact ⟨done, by rw [collect], h⟩
    | cons id queue =>
      rw [collect]
      refine ih (collected_step hd h) ?_
      rw [List.length_append, List.length_singleton]
      omega

theorem Collected.mem_iff {root id : String} {found : List String}
    (h : d.Collected root found []) : id ∈ found ↔ d.NestedIn root id := by
  have hnil : found ++ [] = found := List.append_nil found
  constructor
  · intro hid
    exact h.nested id (by rwa [hnil])
  · intro hid
    induction hid with
    | self => simpa using h.root_mem
    | owned _ hr howner ih => simpa using h.owned _ ih _ (mem_ownedIds.2 ⟨_, hr, howner, rfl⟩)

/-- Where owners come first the search has an end after one look-up for every nested id, and has
then found exactly these. -/
theorem exists_collect (hd : d.Linked form) (root : String) :
    ∃ found, d.collect (d.records.length + 1) [] [root] = some found ∧ found.Nodup ∧
      ∀ id, id ∈ found ↔ d.NestedIn root id := by
  obtain ⟨found, hfound, h⟩ := collect_of_collected hd (collected_start d root)
    (n := d.records.length + 1) (by simp)
  exact ⟨found, hfound, by simpa using h.nodup, fun id => h.mem_iff⟩

end Linked

end FormData
end Questionnaire
