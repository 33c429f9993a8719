import Mathlib.Data.List.Nodup
import Questionnaire.Json.Decode

/-
  JSON values without repeated keys.

  A value is distinct when no object in it has a key twice. Resolving repeated keys gives a distinct
  value (`distinct_resolve`) and leaves a distinct one as it is (`resolve_of_distinct`). A decoder
  that reads a value generically finds that value (`content_reading`), so what it keeps of it is
  distinct.
-/

namespace Questionnaire.Json

/-- Where no two members have the same key, each is found under its own. -/
theorem find?_key_of_mem {α : Type} {key : α → String} {as : List α} (hkeys : (as.map key).Nodup)
    {a : α} (ha : a ∈ as) : as.find? (key · = key a) = some a := by
  have hsome : (as.find? (key · = key a)).isSome := List.find?_isSome.2 ⟨a, ha, by simp⟩
  obtain ⟨found, hfound⟩ := Option.isSome_iff_exists.1 hsome
  rw [hfound, List.inj_on_of_nodup_map hkeys (List.mem_of_find?_eq_some hfound) ha
    (by simpa using List.find?_some hfound)]

/-- No object has a key twice, at any depth. -/
inductive Distinct : Json → Prop
  | null : Distinct .null
  | bool (b : Bool) : Distinct (.bool b)
  | number (n : Number) : Distinct (.number n)
  | text (s : String) : Distinct (.text s)
  | array {items : List Json} (hitems : ∀ j ∈ items, Distinct j) : Distinct (.array items)
  | object {entries : List (String × Json)} (hkeys : (entries.map (·.1)).Nodup)
      (hvalues : ∀ e ∈ entries, Distinct e.2) : Distinct (.object entries)

theorem distinct_array_iff {items : List Json} :
    Distinct (.array items) ↔ ∀ j ∈ items, j.Distinct :=
  ⟨fun h => by cases h with | array hitems => exact hitems, .array⟩

theorem distinct_object_iff {entries : List (String × Json)} :
    Distinct (.object entries) ↔ (entries.map (·.1)).Nodup ∧ ∀ e ∈ entries, e.2.Distinct :=
  ⟨fun h => by cases h with | object hkeys hvalues => exact ⟨hkeys, hvalues⟩,
    fun h => .object h.1 h.2⟩

theorem distinct_empty : Distinct (.object []) := .object List.nodup_nil (List.forall_mem_nil _)

/-! ## Putting entries -/

section Put

variable {key : String} {value : Json} {entries done : List (String × Json)}

theorem put_of_not_mem (h : key ∉ done.map (·.1)) :
    put key value done = done ++ [(key, value)] := by
  induction done with
  | nil => rfl
  | cons e done ih =>
    rw [List.map_cons, List.mem_cons, not_or] at h
    rw [put, if_neg (Ne.symm h.1), ih h.2, List.cons_append]

theorem map_fst_put (h : key ∈ done.map (·.1)) :
    (put key value done).map (·.1) = done.map (·.1) := by
  induction done with
  | nil => cases h
  | cons e done ih =>
    rw [put]
    split
    · next hkey => rw [List.map_cons, List.map_cons, hkey]
    · next hkey =>
      rw [List.map_cons, List.map_cons, ih ((List.mem_cons.1 h).resolve_left (Ne.symm hkey))]

theorem distinct_put (hvalue : value.Distinct) (h : Distinct (.object done)) :
    Distinct (.object (put key value done)) := by
  rw [distinct_object_iff] at h ⊢
  refine ⟨?_, fun e he => ?_⟩
  · by_cases hmem : key ∈ done.map (·.1)
    · rw [map_fst_put hmem]
      exact h.1
    · rw [put_of_not_mem hmem, List.map_append]
      refine List.nodup_append.2 ⟨h.1, List.nodup_singleton _, fun k hk k' hk' heq => hmem ?_⟩
      have hkey : k' = key := List.mem_singleton.1 hk'
      rwa [← hkey, ← heq]
  · suffices hor : e = (key, value) ∨ e ∈ done by
      rcases hor with rfl | he
      · exact hvalue
      · exact h.2 e he
    clear h
    induction done with
    | nil => exact .inl (List.mem_singleton.1 he)
    | cons d done ih =>
      rw [put] at he
      split at he
      · exact (List.mem_cons.1 he).imp id (List.mem_cons_of_mem _)
      · rcases List.mem_cons.1 he with rfl | he
        · exact .inr List.mem_cons_self
        · exact (ih he).imp id (List.mem_cons_of_mem _)

theorem distinct_foldl_put (hvalues : ∀ e ∈ entries, e.2.Distinct) (h : Distinct (.object done)) :
    Distinct (.object (entries.foldl (fun done e => put e.1 e.2 done) done)) := by
  induction entries generalizing done with
  | nil => exact h
  | cons e entries ih =>
    exact ih (fun e he => hvalues e (List.mem_cons_of_mem _ he))
      (distinct_put (hvalues e List.mem_cons_self) h)

/-- Entries with keys of their own are put one behind another. -/
theorem foldl_put_of_nodup (h : ((done ++ entries).map (·.1)).Nodup) :
    entries.foldl (fun done e => put e.1 e.2 done) done = done ++ entries := by
  induction entries generalizing done with
  | nil => rw [List.foldl_nil, List.append_nil]
  | cons e entries ih =>
    have hnew : e.1 ∉ done.map (·.1) := by
      rw [List.map_append, List.nodup_append] at h
      exact fun hmem => h.2.2 _ hmem _ List.mem_cons_self rfl
    rw [List.append_cons] at h
    rw [List.foldl_cons, put_of_not_mem hnew, ih h, ← List.append_cons]

end Put

/-! ## Resolving -/

theorem resolveItems_eq (items : List Json) : resolveItems items = items.map resolve := by
  induction items with
  | nil => rfl
  | cons item items ih => rw [resolveItems, ih, List.map_cons]

theorem resolveEntries_eq (done entries : List (String × Json)) :
    resolveEntries done entries =
      (entries.map fun e => (e.1, resolve e.2)).foldl (fun done e => put e.1 e.2 done) done := by
  induction entries generalizing done with
  | nil => rfl
  | cons e entries ih => rw [resolveEntries, ih, List.map_cons, List.foldl_cons]

theorem resolve_object {entries : List (String × Json)} (hkeys : (entries.map (·.1)).Nodup) :
    resolve (.object entries) = .object (entries.map fun e => (e.1, resolve e.2)) := by
  rw [resolve, resolveEntries_eq, foldl_put_of_nodup, List.nil_append]
  rwa [List.nil_append, List.map_map]

theorem resolve_of_distinct {j : Json} (h : j.Distinct) : resolve j = j := by
  induction h with
  | null | bool | number | text => rfl
  | @array items _ ih =>
    rw [resolve, resolveItems_eq, List.map_congr_left ih, List.map_id']
  | @object entries hkeys _ ih =>
    have hvalues : entries.map (fun e => (e.1, resolve e.2)) = entries := by
      refine (List.map_congr_left fun e he => ?_).trans (List.map_id' entries)
      rw [ih e he]
    rw [resolve_object hkeys, hvalues]

mutual

theorem distinct_resolve : ∀ j : Json, (resolve j).Distinct
  | .null => .null
  | .bool b => .bool b
  | .number n => .number n
  | .text s => .text s
  | .array items => .array (distinct_resolveItems items)
  | .object entries => distinct_resolveEntries [] entries distinct_empty

theorem distinct_resolveItems : ∀ items : List Json, ∀ j ∈ resolveItems items, j.Distinct
  | [], _, hj => nomatch hj
  | item :: items, j, hj => by
    rcases List.mem_cons.1 hj with rfl | hj
    · exact distinct_resolve item
    · exact distinct_resolveItems items j hj

theorem distinct_resolveEntries (done : List (String × Json)) :
    ∀ entries : List (String × Json), Distinct (.object done) →
      Distinct (.object (resolveEntries done entries))
  | [], h => h
  | (key, value) :: entries, h =>
    distinct_resolveEntries (put key (resolve value) done) entries
      (distinct_put (distinct_resolve value) h)

end

theorem resolve_resolve (j : Json) : resolve (resolve j) = resolve j :=
  resolve_of_distinct (distinct_resolve j)

/-! ## Generic reading -/

mutual

/-- Read generically, a value is found as it is. -/
theorem content_reading : ∀ j : Json, j.reading.content = .ok j
  | .null => rfl
  | .bool _ => rfl
  | .number _ => rfl
  | .text _ => rfl
  | .array items => by
    rw [reading, Reading.content, contentItems_reading items]
    rfl
  | .object entries => by
    rw [reading, Reading.content, contentEntries_reading entries]
    rfl

theorem contentItems_reading :
    ∀ items : List Json, Reading.contentItems (readingItems items) = .ok items
  | [] => rfl
  | item :: items => by
    rw [readingItems, Reading.contentItems, content_reading item, contentItems_reading items]
    rfl

theorem contentEntries_reading :
    ∀ entries : List (String × Json), Reading.contentEntries (readingEntries entries) = .ok entries
  | [] => rfl
  | (key, value) :: entries => by
    rw [readingEntries, Reading.contentEntries, content_reading value,
      contentEntries_reading entries]
    rfl

end

mutual

/-- Nothing is wrong with a value that is passed over. -/
theorem skipFault_reading : ∀ j : Json, j.reading.skipFault = none
  | .null => rfl
  | .bool _ => rfl
  | .number _ => rfl
  | .text _ => rfl
  | .array items => by rw [reading, Reading.skipFault, skipItems_reading items]; rfl
  | .object entries => by rw [reading, Reading.skipFault, skipEntries_reading entries]; rfl

theorem skipItems_reading : ∀ items : List Json, Reading.skipItems (readingItems items) = none
  | [] => rfl
  | item :: items => by
    rw [readingItems, Reading.skipItems, skipFault_reading item, skipItems_reading items]
    rfl

theorem skipEntries_reading :
    ∀ entries : List (String × Json), Reading.skipEntries (readingEntries entries) = none
  | [] => rfl
  | (key, value) :: entries => by
    rw [readingEntries, Reading.skipEntries, skipFault_reading value, skipEntries_reading entries]
    rfl

end

end Questionnaire.Json
