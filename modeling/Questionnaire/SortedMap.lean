/-
  Finite maps from texts, kept in ascending order of their keys.

  Texts are ordered by code point, which is the order of their UTF-8 bytes. The order is part of
  the type, so two maps with the same entries are equal and a map is written in the only order it
  has. `get?` is the view of a map: `get?_insert`, `get?_ofList`, `get?_union`, `get?_erase`
  and `get?_filterMap` say what these operations do to it, and `SortedMap.ext_get?` that it
  determines the map.
-/

namespace Questionnaire

/-- Entries with strictly ascending keys. -/
def Ascending {α : Type} (entries : List (String × α)) : Prop :=
  entries.Pairwise fun a b => a.1 < b.1

/-- A finite map from texts. -/
@[ext] structure SortedMap (α : Type) where
  entries : List (String × α)
  ascending : Ascending entries

namespace SortedMap

variable {α β : Type}

instance [DecidableEq α] : DecidableEq (SortedMap α) := fun a b =>
  decidable_of_iff (a.entries = b.entries) ⟨SortedMap.ext, fun h => h ▸ rfl⟩

/-- The map without entries. -/
def empty : SortedMap α := ⟨[], List.Pairwise.nil⟩

instance : Inhabited (SortedMap α) := ⟨empty⟩

instance : EmptyCollection (SortedMap α) := ⟨empty⟩

/-- Whether a map has no entry. -/
def isEmpty (m : SortedMap α) : Bool := m.entries.isEmpty

/-- The number of entries. -/
def size (m : SortedMap α) : Nat := m.entries.length

/-- The keys in ascending order. -/
def keys (m : SortedMap α) : List String := m.entries.map (·.1)

/-- The values in the order of their keys. -/
def values (m : SortedMap α) : List α := m.entries.map (·.2)

/-- The value of the first entry of a key. -/
def find (key : String) : List (String × α) → Option α
  | [] => none
  | entry :: rest => if key = entry.1 then some entry.2 else find key rest

/-- The value under a key. -/
def get? (m : SortedMap α) (key : String) : Option α := find key m.entries

/-- Whether a key has a value. -/
def contains (m : SortedMap α) (key : String) : Bool := (m.get? key).isSome

/-! ## Order of keys -/

theorem key_lt_of_not_lt_of_ne {a b : String} (h : ¬ a < b) (hne : a ≠ b) : b < a := by
  rcases Decidable.em (b < a) with hlt | hge
  · exact hlt
  · exact absurd (String.le_antisymm (String.not_lt.1 hge) (String.not_lt.1 h)) hne

/-! ## Insertion -/

/-- The entries with one put in its place, an older one of the same key replaced. -/
def insertEntry (key : String) (value : α) : List (String × α) → List (String × α)
  | [] => [(key, value)]
  | entry :: rest =>
    if key < entry.1 then (key, value) :: entry :: rest
    else if key = entry.1 then (key, value) :: rest
    else entry :: insertEntry key value rest

theorem key_of_mem_insertEntry {key : String} {value : α} {e : String × α}
    {entries : List (String × α)} (h : e ∈ insertEntry key value entries) :
    e.1 = key ∨ e ∈ entries := by
  induction entries with
  | nil => simp_all [insertEntry]
  | cons head rest ih =>
    rw [insertEntry] at h
    split at h
    · simp only [List.mem_cons] at h ⊢
      rcases h with h | h
      · exact .inl (by rw [h])
      · exact .inr h
    · split at h
      · simp only [List.mem_cons] at h ⊢
        rcases h with h | h
        · exact .inl (by rw [h])
        · exact .inr (.inr h)
      · simp only [List.mem_cons] at h ⊢
        rcases h with h | h
        · exact .inr (.inl h)
        · exact (ih h).imp id .inr

theorem ascending_insertEntry (key : String) (value : α) {entries : List (String × α)}
    (h : Ascending entries) : Ascending (insertEntry key value entries) := by
  induction entries with
  | nil => exact List.pairwise_singleton _ _
  | cons head rest ih =>
    have hhead := (List.pairwise_cons.1 h).1
    have hrest := (List.pairwise_cons.1 h).2
    rw [insertEntry]
    split
    · next hlt =>
      refine List.pairwise_cons.2 ⟨fun e he => ?_, h⟩
      rcases List.mem_cons.1 he with rfl | he
      · exact hlt
      · exact String.lt_trans hlt (hhead e he)
    · next hnlt =>
      split
      · next heq => exact List.pairwise_cons.2 ⟨fun e he => heq ▸ hhead e he, hrest⟩
      · next hne =>
        refine List.pairwise_cons.2 ⟨fun e he => ?_, ih hrest⟩
        rcases key_of_mem_insertEntry he with hk | he
        · exact hk ▸ key_lt_of_not_lt_of_ne hnlt hne
        · exact hhead e he

/-- The map with a value under a key. -/
def insert (m : SortedMap α) (key : String) (value : α) : SortedMap α :=
  ⟨insertEntry key value m.entries, ascending_insertEntry key value m.ascending⟩

/-- The map of a list of entries; a later entry replaces an earlier one of its key. -/
def ofList (entries : List (String × α)) : SortedMap α :=
  entries.foldl (fun m e => m.insert e.1 e.2) empty

/-- The first map with all entries of the second written over it. -/
def union (m new : SortedMap α) : SortedMap α :=
  new.entries.foldl (fun m e => m.insert e.1 e.2) m

/-! ## Removal and selection -/

/-- The map without a key. -/
def erase (m : SortedMap α) (key : String) : SortedMap α :=
  ⟨m.entries.filter (fun e => e.1 != key), List.Pairwise.sublist List.filter_sublist m.ascending⟩

/-- The map of the values that `f` keeps, under their keys. -/
def filterMap (m : SortedMap α) (f : String → α → Option β) : SortedMap β where
  entries := m.entries.filterMap fun e => (f e.1 e.2).map (e.1, ·)
  ascending := by
    refine List.Pairwise.filterMap _ ?_ m.ascending
    intro a a' h b hb b' hb'
    obtain ⟨_, _, rfl⟩ := Option.map_eq_some_iff.1 hb
    obtain ⟨_, _, rfl⟩ := Option.map_eq_some_iff.1 hb'
    exact h

/-- The map with `f` applied to every value. -/
def map (m : SortedMap α) (f : α → β) : SortedMap β where
  entries := m.entries.map fun e => (e.1, f e.2)
  ascending := List.pairwise_map.2 (m.ascending.imp fun h => h)

/-! ## What the operations do to the view -/

@[simp] theorem get?_empty (key : String) : (empty : SortedMap α).get? key = none := rfl

@[simp] theorem get?_emptyCollection (key : String) : (∅ : SortedMap α).get? key = none := rfl

theorem get?_of_isEmpty {m : SortedMap α} (h : m.isEmpty) (key : String) : m.get? key = none := by
  unfold get?
  rw [List.isEmpty_iff.1 h]
  rfl

theorem find_insertEntry (key k : String) (value : α) (entries : List (String × α)) :
    find k (insertEntry key value entries) =
      if k = key then some value else find k entries := by
  induction entries with
  | nil => by_cases h : k = key <;> simp [insertEntry, find, h]
  | cons head rest ih =>
    rw [insertEntry]
    split
    · by_cases h : k = key <;> simp [find, h]
    · split
      · next heq => by_cases h : k = key <;> simp [find, h, ← heq]
      · next hne =>
        by_cases h : k = head.1
        · have hk : k ≠ key := fun hk => hne (hk ▸ h)
          simp [find, h, Ne.symm hne]
        · simp [find, h, ih]

theorem get?_insert (m : SortedMap α) (key k : String) (value : α) :
    (m.insert key value).get? k = if k = key then some value else m.get? k :=
  find_insertEntry key k value m.entries

theorem find_filter_ne (key k : String) (entries : List (String × α)) :
    find k (entries.filter fun e => e.1 != key) =
      if k = key then none else find k entries := by
  induction entries with
  | nil => simp [find]
  | cons head rest ih =>
    by_cases hh : head.1 = key
    · by_cases h : k = key
      · simp_all
      · simp_all [find]
    · by_cases h : k = key
      · have : k ≠ head.1 := fun e => hh (e ▸ h)
        simp_all [find, Ne.symm hh]
      · by_cases hk : k = head.1 <;> simp_all [find]

theorem get?_erase (m : SortedMap α) (key k : String) :
    (m.erase key).get? k = if k = key then none else m.get? k :=
  find_filter_ne key k m.entries

theorem get?_foldl_erase (keys : List String) (m : SortedMap α) (k : String) :
    (keys.foldl erase m).get? k = if k ∈ keys then none else m.get? k := by
  induction keys generalizing m with
  | nil => simp
  | cons key keys ih =>
    rw [List.foldl_cons, ih, get?_erase]
    by_cases hk : k = key <;> simp [hk]

theorem mem_entries_of_get? {m : SortedMap α} {k : String} {v : α} (h : m.get? k = some v) :
    (k, v) ∈ m.entries := by
  obtain ⟨entries, hm⟩ := m
  induction entries with
  | nil => simp [get?, find] at h
  | cons head rest ih =>
    by_cases hk : k = head.1
    · have hv : head.2 = v := by simpa [get?, find, hk] using h
      exact List.mem_cons.2 (.inl (Prod.ext hk hv.symm))
    · have := ih (List.pairwise_cons.1 hm).2 (by simpa [get?, find, hk] using h)
      exact List.mem_cons_of_mem _ this

theorem get?_eq_none_of_lt {key : String} {entries : List (String × α)}
    (h : ∀ e ∈ entries, key < e.1) : find key entries = none := by
  induction entries with
  | nil => rfl
  | cons head rest ih =>
    have hne : key ≠ head.1 := fun e => String.lt_irrefl _ (e ▸ h head (by simp))
    simp [find, hne, ih fun e he => h e (by simp [he])]

theorem get?_of_mem_entries {m : SortedMap α} {k : String} {v : α} (h : (k, v) ∈ m.entries) :
    m.get? k = some v := by
  obtain ⟨entries, hm⟩ := m
  induction entries with
  | nil => simp at h
  | cons head rest ih =>
    have hhead := (List.pairwise_cons.1 hm).1
    rcases List.mem_cons.1 h with he | he
    · subst he; simp [get?, find]
    · have hne : k ≠ head.1 := fun e => String.lt_irrefl _ (e ▸ hhead _ he)
      have := ih (List.pairwise_cons.1 hm).2 he
      simpa [get?, find, hne] using this

theorem get?_eq_some_iff {m : SortedMap α} {k : String} {v : α} :
    m.get? k = some v ↔ (k, v) ∈ m.entries :=
  ⟨mem_entries_of_get?, get?_of_mem_entries⟩

theorem get?_filterMap (m : SortedMap α) (f : String → α → Option β) (k : String) :
    (m.filterMap f).get? k = (m.get? k).bind (f k) := by
  apply Option.ext
  intro v
  rw [get?_eq_some_iff, Option.bind_eq_some_iff]
  simp only [filterMap, List.mem_filterMap, Option.map_eq_some_iff, get?_eq_some_iff]
  constructor
  · rintro ⟨⟨k', a⟩, hmem, b, hb, heq⟩
    simp only [Prod.mk.injEq] at heq
    obtain ⟨rfl, rfl⟩ := heq
    exact ⟨a, hmem, hb⟩
  · rintro ⟨a, hmem, hb⟩
    exact ⟨(k, a), hmem, v, hb, rfl⟩

theorem get?_union (m new : SortedMap α) (k : String) :
    (m.union new).get? k = (new.get? k).or (m.get? k) := by
  obtain ⟨entries, h⟩ := new
  unfold union
  induction entries generalizing m with
  | nil => rfl
  | cons head rest ih =>
    have hhead := (List.pairwise_cons.1 h).1
    rw [List.foldl_cons, ih _ (List.pairwise_cons.1 h).2, get?_insert]
    by_cases hk : k = head.1
    · have hrest : find k rest = none := get?_eq_none_of_lt fun e he => hk ▸ hhead e he
      simp [get?, find, hk, hk ▸ hrest]
    · simp [get?, find, hk]

theorem get?_foldl_insert (entries : List (String × α)) (m : SortedMap α) (k : String) :
    (entries.foldl (fun m e => m.insert e.1 e.2) m).get? k =
      ((entries.reverse.find? (·.1 = k)).map (·.2)).or (m.get? k) := by
  induction entries generalizing m with
  | nil => rfl
  | cons e entries ih =>
    rw [List.foldl_cons, ih, get?_insert, List.reverse_cons, List.find?_append]
    by_cases hk : k = e.1
    · cases entries.reverse.find? (·.1 = k) <;> simp [hk]
    · cases entries.reverse.find? (·.1 = k) <;> simp [hk, Ne.symm hk]

/-- Under a key stands the value of its last entry. -/
theorem get?_ofList (entries : List (String × α)) (k : String) :
    (ofList entries).get? k = (entries.reverse.find? (·.1 = k)).map (·.2) := by
  rw [ofList, get?_foldl_insert, get?_empty, Option.or_none]

theorem isEmpty_ofList_iff {entries : List (String × α)} :
    (ofList entries).isEmpty ↔ entries = [] := by
  constructor
  · intro h
    cases entries with
    | nil => rfl
    | cons e rest =>
      have hnone := get?_of_isEmpty h e.1
      rw [get?_ofList, Option.map_eq_none_iff, List.find?_eq_none] at hnone
      exact absurd (decide_eq_true rfl) (hnone e (List.mem_reverse.2 List.mem_cons_self))
  · rintro rfl
    rfl

/-- A map is determined by what it holds under each key. -/
theorem ext_get? {m n : SortedMap α} (h : ∀ k, m.get? k = n.get? k) : m = n := by
  obtain ⟨a, ha⟩ := m
  obtain ⟨b, hb⟩ := n
  apply SortedMap.ext
  show a = b
  induction a generalizing b with
  | nil =>
    cases b with
    | nil => rfl
    | cons e rest => have := h e.1; simp [get?, find] at this
  | cons e rest ih =>
    cases b with
    | nil => have := h e.1; simp [get?, find] at this
    | cons e' rest' =>
      have hlt := (List.pairwise_cons.1 ha).1
      have hlt' := (List.pairwise_cons.1 hb).1
      have hkey : e.1 = e'.1 := by
        rcases Decidable.em (e.1 = e'.1) with heq | hne
        · exact heq
        · have h1 : (e.1, e.2) ∈ rest' := by
            have hget : (⟨e :: rest, ha⟩ : SortedMap α).get? e.1 = some e.2 := by simp [get?, find]
            have := get?_eq_some_iff.1 ((h e.1).symm.trans hget)
            rcases List.mem_cons.1 this with he | he
            · exact absurd (congrArg Prod.fst he) hne
            · exact he
          have h2 : (e'.1, e'.2) ∈ rest := by
            have hget : (⟨e' :: rest', hb⟩ : SortedMap α).get? e'.1 = some e'.2 := by
              simp [get?, find]
            have := get?_eq_some_iff.1 ((h e'.1).trans hget)
            rcases List.mem_cons.1 this with he | he
            · exact absurd (congrArg Prod.fst he).symm hne
            · exact he
          exact absurd (hlt _ h2) (String.lt_asymm (hlt' _ h1))
      have hval : e.2 = e'.2 := by
        have := h e.1
        simpa [get?, find, hkey] using this
      have he : e = e' := Prod.ext hkey hval
      subst he
      congr 1
      refine ih (List.pairwise_cons.1 ha).2 _ (List.pairwise_cons.1 hb).2 fun k => ?_
      have := h k
      by_cases hk : k = e.1
      · show find k rest = find k rest'
        rw [get?_eq_none_of_lt (fun x hx => hk ▸ hlt x hx),
          get?_eq_none_of_lt (fun x hx => hk ▸ hlt' x hx)]
      · simpa [get?, find, hk] using this

end SortedMap
end Questionnaire
