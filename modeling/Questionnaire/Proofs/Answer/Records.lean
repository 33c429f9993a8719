import Questionnaire.Answer.Records

/-
  Records by id, and the records nested in one.

  Filing answers changes the values of records and nothing else: their `frames` stay. What is
  looked up by id survives adding a record under a new id (`record?_addRecord`) and removing
  others (`record?_removeRecord`). A record owned by a removed one is removed too
  (`closed_nested`), so removing leaves no record without its owner.
-/

namespace Questionnaire

/-- A record without its values. -/
def ChildRecord.frame (r : ChildRecord) : ChildRecord := { r with values := ∅ }

theorem ChildRecord.frame_eq_iff {r r' : ChildRecord} : r.frame = r'.frame ↔
    r.id = r'.id ∧ r.field = r'.field ∧ r.owner = r'.owner ∧ r.step = r'.step := by
  simp [frame]

namespace FormData

/-- The records without their values. -/
def frames (d : FormData) : List ChildRecord := d.records.map ChildRecord.frame

/-! ## Looking records up -/

theorem mem_of_record? {d : FormData} {id : String} {r : ChildRecord} (h : d.record? id = some r) :
    r ∈ d.records := List.mem_of_find?_eq_some h

theorem id_of_record? {d : FormData} {id : String} {r : ChildRecord} (h : d.record? id = some r) :
    r.id = id := by
  simpa using List.find?_some h

theorem record?_eq_none_iff {d : FormData} {id : String} :
    d.record? id = none ↔ ∀ r ∈ d.records, r.id ≠ id := by
  simp [record?]

theorem frame_record? (d : FormData) (id : String) :
    (d.record? id).map ChildRecord.frame = d.frames.find? (·.id = id) := by
  rw [frames, List.find?_map]
  rfl

/-- A record found before is found with other values as long as the frames stay. -/
theorem record?_of_frames_eq {d d' : FormData} (h : d'.frames = d.frames) {id : String}
    {r : ChildRecord} (hr : d.record? id = some r) :
    ∃ r', d'.record? id = some r' ∧ r'.frame = r.frame := by
  have hmap := frame_record? d' id
  rw [h, ← frame_record?, hr, Option.map_some, Option.map_eq_some_iff] at hmap
  exact hmap

theorem mem_of_frames_eq {d d' : FormData} (h : d'.frames = d.frames) {r' : ChildRecord}
    (hr : r' ∈ d'.records) : ∃ r ∈ d.records, r.frame = r'.frame := by
  have hmem : r'.frame ∈ d'.frames := List.mem_map_of_mem hr
  rw [h] at hmem
  exact List.mem_map.1 hmem

/-! ## Adding a record -/

theorem record?_addRecord {d : FormData} {r : ChildRecord} {id : String} :
    (d.addRecord r).record? id = (d.record? id).or (if r.id = id then some r else none) := by
  simp only [record?, addRecord, List.find?_append, List.find?_singleton, decide_eq_true_eq]

/-- A record found before a new one is added is found after it. -/
theorem record?_addRecord_of_some {d : FormData} {r r' : ChildRecord} {id : String}
    (h : d.record? id = some r') : (d.addRecord r).record? id = some r' := by
  rw [record?_addRecord, h]
  rfl

theorem record?_addRecord_self {d : FormData} {r : ChildRecord} (h : ∀ x ∈ d.records, x.id ≠ r.id) :
    (d.addRecord r).record? r.id = some r := by
  rw [record?_addRecord, record?_eq_none_iff.2 h, if_pos rfl]
  rfl

/-- Under the id of a new record there is a record then, an old one if the id was in use. -/
theorem exists_record?_addRecord (d : FormData) (r : ChildRecord) :
    ∃ x, (d.addRecord r).record? r.id = some x := by
  rw [record?_addRecord, if_pos rfl]
  cases d.record? r.id with
  | some x => exact ⟨x, rfl⟩
  | none => exact ⟨r, rfl⟩

/-! ## Changing a record -/

theorem map_replaceFirst {α β : Type} {p : α → Bool} {f : α → α} {g : α → β}
    (h : ∀ a, g (f a) = g a) (as : List α) : (replaceFirst p f as).map g = as.map g := by
  induction as with
  | nil => rfl
  | cons a as ih =>
    rw [replaceFirst]
    split
    · rw [List.map_cons, List.map_cons, h]
    · rw [List.map_cons, List.map_cons, ih]

theorem find?_replaceFirst {α : Type} {p q : α → Bool} {f : α → α} (hq : ∀ a, q (f a) = q a)
    (hpq : ∀ a, p a = true → q a = false) (as : List α) :
    (replaceFirst p f as).find? q = as.find? q := by
  induction as with
  | nil => rfl
  | cons a as ih =>
    rw [replaceFirst]
    split
    · next hp => rw [List.find?_cons, List.find?_cons, hq, hpq a hp]
    · rw [List.find?_cons, List.find?_cons, ih]

theorem find?_replaceFirst_self {α : Type} {p : α → Bool} {f : α → α} (hp : ∀ a, p (f a) = p a)
    (as : List α) : (replaceFirst p f as).find? p = (as.find? p).map f := by
  induction as with
  | nil => rfl
  | cons a as ih =>
    rw [replaceFirst]
    split
    · next h => rw [List.find?_cons, List.find?_cons, hp, h]; rfl
    · next h => simpa [h] using ih

theorem mem_replaceFirst {α : Type} {p : α → Bool} {f : α → α} {as : List α} {b : α}
    (h : b ∈ replaceFirst p f as) : b ∈ as ∨ ∃ a, as.find? p = some a ∧ b = f a := by
  induction as with
  | nil => exact .inl h
  | cons a as ih =>
    rw [replaceFirst] at h
    split at h
    · next hp =>
      rcases List.mem_cons.1 h with rfl | h
      · exact .inr ⟨a, by rw [List.find?_cons, hp], rfl⟩
      · exact .inl (List.mem_cons_of_mem _ h)
    · next hp =>
      rcases List.mem_cons.1 h with rfl | h
      · exact .inl List.mem_cons_self
      · rw [List.find?_cons, Bool.not_eq_true _ |>.mp hp]
        exact (ih h).imp (List.mem_cons_of_mem _) id

theorem record?_modifyRecord {d : FormData} {id key : String} {f : ChildRecord → ChildRecord}
    (hf : ∀ r, (f r).id = r.id) :
    (d.modifyRecord id f).record? key =
      if key = id then (d.record? key).map f else d.record? key := by
  unfold record? modifyRecord
  split
  · next h =>
    subst h
    exact find?_replaceFirst_self (fun r => by rw [hf]) d.records
  · next h =>
    refine find?_replaceFirst (fun r => by rw [hf]) (fun r hr => ?_) d.records
    simp only [decide_eq_true_eq] at hr
    simpa [hr] using Ne.symm h

theorem frames_modifyRecord {d : FormData} {id : String} {f : ChildRecord → ChildRecord}
    (hf : ∀ r, (f r).frame = r.frame) : (d.modifyRecord id f).frames = d.frames :=
  map_replaceFirst hf d.records

/-! ## Removing a record -/

theorem mem_removeRecord {d : FormData} {id : String} {r : ChildRecord} :
    r ∈ (d.removeRecord id).records ↔ r ∈ d.records ∧ r.id ∉ d.nested id := by
  simp [removeRecord]

theorem mem_removed {d : FormData} {id : String} {r : ChildRecord} :
    r ∈ d.removed id ↔ r ∈ d.records ∧ r.id ∈ d.nested id := by
  simp [removed]

theorem record?_removeRecord {d : FormData} {id key : String} (h : key ∉ d.nested id) :
    (d.removeRecord id).record? key = d.record? key := by
  unfold record? removeRecord
  rw [List.find?_filter]
  congr 1
  funext r
  by_cases hr : r.id = key <;> simp [hr, h]

/-- A record that is not among the removed ones is still found. -/
theorem record?_removeRecord_of_some {d : FormData} {id key : String} {r : ChildRecord}
    (hr : d.record? key = some r) (h : key ∉ (d.removed id).map (·.id)) :
    (d.removeRecord id).record? key = some r := by
  have hkey := id_of_record? hr
  rw [record?_removeRecord, hr]
  intro hnested
  exact h (List.mem_map.2 ⟨r, mem_removed.2 ⟨mem_of_record? hr, hkey ▸ hnested⟩, hkey⟩)

/-! ## Nested records -/

/-- The records whose ids are not among the given ones. -/
def outside (records : List ChildRecord) (ids : List String) : List ChildRecord :=
  records.filter fun r => !ids.contains r.id

/-- Ids that hold every record owned by one of them. -/
def OwnerClosed (records : List ChildRecord) (ids : List String) : Prop :=
  ∀ r ∈ records, ∀ p ∈ ids, r.owner = some p → r.id ∈ ids

theorem mem_ownedBy {records : List ChildRecord} {ids : List String} {id : String} :
    id ∈ ownedBy records ids ↔ ∃ r ∈ records, (∃ p ∈ ids, r.owner = some p) ∧ r.id = id := by
  simp only [ownedBy, List.mem_map, List.mem_filter, Option.any_eq_true, List.contains_iff_mem,
    and_assoc]
  constructor
  · rintro ⟨r, hr, ⟨p, ho, hp⟩, rfl⟩
    exact ⟨r, hr, ⟨p, hp, ho⟩, rfl⟩
  · rintro ⟨r, hr, ⟨p, hp, ho⟩, rfl⟩
    exact ⟨r, hr, ⟨p, ho, hp⟩, rfl⟩

theorem subset_withOwned (records : List ChildRecord) (n : Nat) (ids : List String) :
    ids ⊆ withOwned records n ids := by
  induction n generalizing ids with
  | zero => exact fun _ h => h
  | succ n ih => exact fun id h => ih _ (List.mem_append_left _ h)

/-- What a round adds to the given ids. -/
def added (records : List ChildRecord) (ids : List String) : List String :=
  (ownedBy records ids).filter fun id => !ids.contains id

theorem mem_added {records : List ChildRecord} {ids : List String} {id : String} :
    id ∈ added records ids ↔
      (∃ r ∈ records, (∃ p ∈ ids, r.owner = some p) ∧ r.id = id) ∧ id ∉ ids := by
  simp [added, mem_ownedBy]

theorem closed_of_added_eq_nil {records : List ChildRecord} {ids : List String}
    (h : added records ids = []) : OwnerClosed records ids := by
  intro r hr p hp ho
  rcases Decidable.em (r.id ∈ ids) with hm | hm
  · exact hm
  · have : r.id ∈ added records ids := mem_added.2 ⟨⟨r, hr, ⟨p, hp, ho⟩, rfl⟩, hm⟩
    rw [h] at this
    exact absurd this List.not_mem_nil

theorem withOwned_of_added_eq_nil {records : List ChildRecord} {ids : List String}
    (h : added records ids = []) (n : Nat) : withOwned records n ids = ids := by
  induction n with
  | zero => rfl
  | succ n ih =>
    show withOwned records n (ids ++ added records ids) = ids
    rw [h, List.append_nil, ih]

theorem closed_of_outside_eq_nil {records : List ChildRecord} {ids : List String}
    (h : outside records ids = []) : OwnerClosed records ids := by
  intro r hr _ _ _
  have := List.filter_eq_nil_iff.1 h r hr
  simpa using this

/-- A round that finds a new record leaves fewer outside. -/
theorem length_outside_lt {records : List ChildRecord} {ids new : List String} {r : ChildRecord}
    (hr : r ∈ records) (hnot : r.id ∉ ids) (hnew : r.id ∈ new) :
    (outside records (ids ++ new)).length < (outside records ids).length := by
  have hfilter : outside records (ids ++ new) =
      (outside records ids).filter fun r => !new.contains r.id := by
    simp only [outside, List.filter_filter, List.contains_append, Bool.not_or, Bool.and_comm]
  rw [hfilter]
  refine List.length_filter_lt_length_iff_exists.2 ⟨r, ?_, by simp [hnew]⟩
  exact List.mem_filter.2 ⟨hr, by simpa using hnot⟩

/-- As many rounds as there are records outside reach everything that is owned. -/
theorem closed_withOwned {records : List ChildRecord} (n : Nat) {ids : List String}
    (h : (outside records ids).length ≤ n) : OwnerClosed records (withOwned records n ids) := by
  induction n generalizing ids with
  | zero => exact closed_of_outside_eq_nil (List.length_eq_zero_iff.1 (Nat.le_zero.1 h))
  | succ n ih =>
    cases hnew : added records ids with
    | nil =>
      rw [withOwned_of_added_eq_nil hnew]
      exact closed_of_added_eq_nil hnew
    | cons id rest =>
      have hid : id ∈ added records ids := hnew ▸ List.mem_cons_self
      obtain ⟨⟨r, hr, _, rfl⟩, hnot⟩ := mem_added.1 hid
      have := length_outside_lt hr hnot hid
      show OwnerClosed records (withOwned records n (ids ++ added records ids))
      exact ih (by omega)

theorem self_mem_nested (d : FormData) (id : String) : id ∈ d.nested id :=
  subset_withOwned _ _ _ List.mem_cons_self

theorem closed_nested (d : FormData) (id : String) : OwnerClosed d.records (d.nested id) :=
  closed_withOwned _ (List.length_filter_le _ _)

end FormData
end Questionnaire
