import Questionnaire.Proofs.Session.Nesting

/-
  Deleting a record takes everything nested in it, and nothing else.

  Which records go is a matter of owners alone (`FormData.removeRecord_eq_without`). That the search
  for them has an end and that the first one it takes is the one asked for both rest on the order of
  the records: in a session that a run comes to every owner stands before what it owns.
-/

namespace Questionnaire

namespace Session

variable {s : Session}

/-- Deleting gives the first record taken away. What stays active is none of those. -/
theorem exists_deleteRecord {id : String} {first : ChildRecord} {more : List ChildRecord}
    (h : s.data.removed id = first :: more) :
    ∃ after, s.deleteRecord id = .ok (first, after) ∧ after.data = s.data.removeRecord id ∧
      after.failures = s.failures.forget ((s.data.removed id).map (·.id)) ∧
      ∀ a ∈ after.active, a ∈ s.active ∧ a.id ∉ (s.data.removed id).map (·.id) := by
  rw [h]
  simp only [deleteRecord, h]
  split
  · exact ⟨_, rfl, rfl, rfl, fun a ha => mem_keptActive ha⟩
  · next hany =>
    refine ⟨_, rfl, rfl, rfl, fun a ha => ⟨ha, fun hid => hany ?_⟩⟩
    exact List.any_eq_true.2 ⟨a, ha, List.contains_iff_mem.2 hid⟩

/-- What is nested in a record is taken away with it. -/
theorem mem_removed_of_nestedIn {d : FormData} {r : ChildRecord} (hr : r ∈ d.records) {id : String}
    (h : d.NestedIn r.id id) : id ∈ (d.removed r.id).map (·.id) := by
  cases h with
  | self => exact List.mem_map_of_mem (FormData.mem_removed.2 ⟨hr, d.self_mem_nested r.id⟩)
  | owned hp hx howner =>
    have hnested := FormData.mem_nested_iff.2 (.owned hp hx howner)
    exact List.mem_map_of_mem (FormData.mem_removed.2 ⟨hx, hnested⟩)

/-- In a session that a run comes to, deleting a record that is there succeeds. The search for what
is nested in it has an end and finds exactly that; it is left out of the answers, the rest of which
stay, and the record itself is given. Every owner of a record that stays is there, no edit of what
was deleted goes on and no failure of it is kept. -/
theorem deleteRecord_takes_nested {f : Form} (h : Reached f s) {r : ChildRecord}
    (hr : r ∈ s.data.records) :
    ∃ found after, s.data.collect (s.data.records.length + 1) [] [r.id] = some found ∧
      (∀ id, id ∈ found ↔ s.data.NestedIn r.id id) ∧ s.deleteRecord r.id = .ok (r, after) ∧
      after.data = s.data.without (s.data.NestedIn r.id) ∧
      (∀ x ∈ after.data.records, ∀ p, x.owner = some p → ∃ o ∈ after.data.records, o.id = p) ∧
      (∀ a ∈ after.active, ¬ s.data.NestedIn r.id a.id) ∧
      ∀ id, s.data.NestedIn r.id id → after.failures.ofRecords.get? id = none := by
  obtain ⟨found, hfound, -, hmem⟩ := FormData.exists_collect h.linked r.id
  obtain ⟨more, hremoved⟩ := FormData.exists_removed_eq_cons h.linked hr
  obtain ⟨after, hdelete, hdata, hfailures, hactive⟩ := exists_deleteRecord hremoved
  refine ⟨found, after, hfound, hmem, hdelete, hdata.trans (FormData.removeRecord_eq_without _ _),
    fun x hx p hp => ?_, fun a ha hnested => ?_, fun id hid => ?_⟩
  · obtain ⟨before, rest, hsplit⟩ := List.append_of_mem hx
    have hlinked := (FormData.sound_removeRecord h.sound.data r.id).toLinked
    obtain ⟨o, ho, hid, -⟩ := hlinked.owned before x rest (hdata ▸ hsplit) p hp
    exact ⟨o, hsplit ▸ List.mem_append_left _ ho, hid⟩
  · exact (hactive a ha).2 (mem_removed_of_nestedIn hr hnested)
  · rw [hfailures]
    show (List.foldl SortedMap.erase _ _).get? id = none
    rw [SortedMap.get?_foldl_erase, if_pos (mem_removed_of_nestedIn hr hid)]

/-! ## Deleting around a record -/

/-- A form whose works lead to persons, and persons to firms, which must have a name. -/
def firmForm : Form where
  steps := [
    { id := "work"
      pages := [{ sections := [{ fields := [
        { id := "author", kind := .reference, target := some "person" }] }] }] },
    { id := "person"
      pages := [{ sections := [{ fields := [
        { id := "employer", kind := .reference, target := some "firm" }] }] }] },
    { id := "firm"
      pages := [{ sections := [{ fields := [
        { id := "name", rules := { conformance := .mandatory } }] }] }] }]

/-- A run to a firm without a name, in the second of two authors; both are being edited. -/
def firmRun : List SessionAction := [
  .addRecord "author" "c", .finish, .addRecord "author" "a", .addRecord "employer" "b",
  .edit "name" (.text "")]

/-- Deleting the author takes the firm and its failure as well; the other author stays. -/
theorem deleteRecord_takes_nested_firm : ∃ s r after, Reached firmForm s ∧
    r ∈ s.data.records ∧ s.data.records.map (·.id) = ["c", "a", "b"] ∧
    (s.failures.ofRecords.get? "b").isSome ∧ s.deleteRecord "a" = .ok (r, after) ∧
    after.data.records.map (·.id) = ["c"] ∧ after.failures.ofRecords.get? "b" = none := by
  obtain ⟨s₀, hstart, -⟩ := exists_start (f := firmForm) (List.cons_ne_nil _ _)
  have h : Reached firmForm (s₀.run firmRun) := reached_of_start hstart (by decide)
  generalize hs : s₀.run firmRun = s at h
  obtain ⟨hids, hfailure, hnested, hrest⟩ : s.data.records.map (·.id) = ["c", "a", "b"] ∧
      (s.failures.ofRecords.get? "b").isSome ∧ s.data.NestedIn "a" "b" ∧
      (s.data.without (s.data.NestedIn "a")).records.map (·.id) = ["c"] := by
    cases hstart
    cases hs
    decide
  obtain ⟨r, hr, hid⟩ : ∃ r ∈ s.data.records, r.id = "a" := List.mem_map.1 (by rw [hids]; decide)
  obtain ⟨-, after, -, -, hdelete, hdata, -, -, hfailures⟩ := deleteRecord_takes_nested h hr
  rw [hid] at hdelete hdata hfailures
  exact ⟨s, r, after, h, hr, hids, hfailure, hdelete, hdata ▸ hrest, hfailures "b" hnested⟩

end Session
end Questionnaire
