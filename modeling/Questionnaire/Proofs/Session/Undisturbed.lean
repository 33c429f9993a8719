import Mathlib
import Questionnaire.Proofs.Session.Deletion
import Questionnaire.Proofs.Session.Parents

/-
  Deleting records around the edit in progress.

  A user may reopen any record while others are being edited, so the records being edited need not
  lie inside one another. Deleting a record ends the outermost edit of a record nested in it, and
  with that edit all those begun since (`exists_keptActive`). So nothing changes for the user when
  none of the records being edited is nested in the deleted one, and something does when one is
  (`undisturbed_deleteRecord_iff`).

  As long as records are opened only in the scope that owns them, each record being edited is owned
  by the one around it (`FormData.OwnedInTurn`). Then it is enough that the innermost one is not
  nested in what is deleted. Otherwise it is not (`delete_around_reopened`).
-/

namespace Questionnaire

namespace FormData

variable {form : Form} {d d' : FormData}

/-- Removing a record that is there takes away the ids nested in it. -/
theorem mem_map_id_removed_iff {r : ChildRecord} (hr : r ∈ d.records) {id : String} :
    id ∈ (d.removed r.id).map (·.id) ↔ d.NestedIn r.id id := by
  constructor
  · intro h
    obtain ⟨x, hx, rfl⟩ := List.mem_map.1 h
    exact mem_nested_iff.1 (mem_removed.1 hx).2
  · exact Session.mem_removed_of_nestedIn hr

/-- Each record being edited is owned by the one around it, the outermost by none. -/
def OwnedInTurn (d : FormData) : List ActiveRecord → Prop
  | [] => True
  | a :: around =>
    (∃ r, d.record? a.id = some r ∧ r.owner = around.head?.map (·.id)) ∧ d.OwnedInTurn around

namespace OwnedInTurn

variable {active : List ActiveRecord}

theorem imp (h : d.OwnedInTurn active)
    (hkeep : ∀ a ∈ active, ∀ r, d.record? a.id = some r →
      ∃ r', d'.record? a.id = some r' ∧ r'.owner = r.owner) : d'.OwnedInTurn active := by
  induction active with
  | nil => trivial
  | cons a around ih =>
    obtain ⟨⟨r, hr, howner⟩, haround⟩ := h
    obtain ⟨r', hr', heq⟩ := hkeep a List.mem_cons_self r hr
    exact ⟨⟨r', hr', heq.trans howner⟩, ih haround fun b hb => hkeep b (List.mem_cons_of_mem a hb)⟩

theorem of_frames_eq (h : d.OwnedInTurn active) (hframes : d'.frames = d.frames) :
    d'.OwnedInTurn active := by
  refine h.imp fun a _ r hr => ?_
  obtain ⟨r', hr', hframe⟩ := record?_of_frames_eq hframes hr
  exact ⟨r', hr', (ChildRecord.frame_eq_iff.1 hframe).2.2.1⟩

theorem addRecord (h : d.OwnedInTurn active) (r : ChildRecord) :
    (d.addRecord r).OwnedInTurn active :=
  h.imp fun _ _ x hx => ⟨x, record?_addRecord_of_some hx, rfl⟩

theorem removeRecord (h : d.OwnedInTurn active) {id : String}
    (hactive : ∀ a ∈ active, a.id ∉ (d.removed id).map (·.id)) :
    (d.removeRecord id).OwnedInTurn active :=
  h.imp fun a ha r hr => ⟨r, record?_removeRecord_of_some hr (hactive a ha), rfl⟩

theorem of_append {inner outer : List ActiveRecord} (h : d.OwnedInTurn (inner ++ outer)) :
    d.OwnedInTurn outer := by
  induction inner with
  | nil => exact h
  | cons a inner ih => exact ih h.2

/-- What an outer record is nested in, the innermost one is nested in, too. -/
theorem nestedIn_innermost {a b : ActiveRecord} {around : List ActiveRecord}
    (h : d.OwnedInTurn (a :: around)) (hb : b ∈ around) {root : String}
    (hnested : d.NestedIn root b.id) : d.NestedIn root a.id := by
  induction around generalizing a with
  | nil => cases hb
  | cons c around ih =>
    obtain ⟨⟨r, hr, howner⟩, haround⟩ := h
    have hc : d.NestedIn root c.id := by
      rcases List.mem_cons.1 hb with rfl | hb
      · exact hnested
      · exact ih haround hb
    exact id_of_record? hr ▸ .owned hc (mem_of_record? hr) howner

end OwnedInTurn
end FormData

namespace Session

variable {s : Session}

/-! ## What goes on -/

/-- The user sees the same edit in progress: the same page, records being edited, draft and
values. -/
structure Undisturbed (s t : Session) : Prop where
  step : t.step = s.step
  page : t.page = s.page
  active : t.active = s.active
  draft : t.draft = s.draft
  value : ∀ field, t.value? field = s.value? field

/-- The edits from the outermost one of a record nested in a root on are over. -/
structure Ended (root : String) (s t : Session) : Prop where
  active : ∃ inner a, s.active = inner ++ a :: t.active ∧ s.data.NestedIn root a.id
  kept : ∀ a ∈ t.active, ¬ s.data.NestedIn root a.id
  draft : t.draft = ∅

theorem undisturbed_dropRecord (h : s.InPlace) {id : String}
    (hactive : ∀ a ∈ s.active, a.id ∉ (s.data.removed id).map (·.id)) :
    s.Undisturbed (s.dropRecord id) := by
  refine ⟨rfl, rfl, rfl, rfl, fun field => ?_⟩
  have hscope : (s.dropRecord id).scope = s.scope := rfl
  have hcommitted : (s.dropRecord id).committed? s.scope = s.committed? s.scope := by
    unfold scope
    split
    · next a rest ha =>
      obtain ⟨r, hr, -⟩ := h.innermost a rest ha
      have hnot := hactive a (ha ▸ List.mem_cons_self)
      have hkept := FormData.record?_removeRecord_of_some hr hnot
      exact congrArg (Option.map (·.values)) (hkept.trans hr.symm)
    · rfl
  rw [value?, hscope, hcommitted]
  rfl

/-- What is kept of the records being edited are those outside the outermost removed one. -/
theorem exists_keptActive {active : List ActiveRecord} {removed : List String}
    (h : ∃ a ∈ active, a.id ∈ removed) :
    ∃ inner a, active = inner ++ a :: keptActive active removed ∧ a.id ∈ removed := by
  let keep (a : ActiveRecord) : Bool := !removed.contains a.id
  have hsplit : active.reverse.takeWhile keep ++ active.reverse.dropWhile keep = active.reverse :=
    List.takeWhile_append_dropWhile
  cases hdrop : active.reverse.dropWhile keep with
  | nil =>
    obtain ⟨a, ha, hremoved⟩ := h
    have hkeep := List.dropWhile_eq_nil_iff.1 hdrop a (List.mem_reverse.2 ha)
    simp [keep, hremoved] at hkeep
  | cons a inner =>
    refine ⟨inner.reverse, a, ?_, ?_⟩
    · rw [hdrop] at hsplit
      have hreverse := congrArg List.reverse hsplit
      rw [List.reverse_append, List.reverse_cons, List.reverse_reverse,
        List.append_assoc] at hreverse
      exact hreverse.symm
    · have hhead := List.head?_dropWhile_not keep active.reverse
      rw [hdrop] at hhead
      simpa [keep] using hhead

theorem perform_deleteRecord {id : String} {r : ChildRecord} {after : Session}
    (h : s.deleteRecord id = .ok (r, after)) : s.perform (.deleteRecord id) = after := by
  show s.orSelf (s.deleteRecord id) = after
  rw [h]
  rfl

/-- Deleting a record ends the edits begun since the outermost one of a record nested in it, if
there is one, and else disturbs nothing. -/
theorem undisturbed_or_ended (h : s.InPlace) {r : ChildRecord} (hr : r ∈ s.data.records)
    {after : Session} (hdelete : s.deleteRecord r.id = .ok (r, after)) :
    ((∀ a ∈ s.active, ¬ s.data.NestedIn r.id a.id) ∧ s.Undisturbed after) ∨
      s.Ended r.id after := by
  have hmem (id : String) : id ∈ (s.data.removed r.id).map (·.id) ↔ s.data.NestedIn r.id id :=
    FormData.mem_map_id_removed_iff hr
  have hout := s.outcome_perform (.deleteRecord r.id)
  have herror : s.error? (.deleteRecord r.id) = none := by rw [error?, hdelete, error?.errorOf]
  rw [perform_deleteRecord hdelete] at hout
  cases hout with
  | failed hfailed => simp [herror] at hfailed
  | deletedOther _ hactive =>
    exact .inl ⟨fun a ha hnested => hactive a ha ((hmem a.id).2 hnested),
      undisturbed_dropRecord h hactive⟩
  | deletedActive _ hactive =>
    obtain ⟨inner, a, hsplit, ha⟩ := exists_keptActive hactive
    exact .inr ⟨⟨inner, a, hsplit, (hmem a.id).1 ha⟩,
      fun b hb hnested => (mem_keptActive hb).2 ((hmem b.id).2 hnested), rfl⟩

theorem not_undisturbed_of_ended {root : String} {t : Session} (h : s.Ended root t) :
    ¬ s.Undisturbed t := by
  intro hsame
  obtain ⟨inner, a, hsplit, -⟩ := h.active
  have hlength := congrArg List.length hsplit
  rw [hsame.active, List.length_append, List.length_cons] at hlength
  omega

/-! ## Records opened where they belong -/

/-- A record is opened only in the scope that owns it. -/
def OpensWithin (s : Session) : SessionAction → Prop
  | .openRecord id => ∀ r ∈ s.data.record? id, r.owner = s.active.head?.map (·.id)
  | _ => True

instance (s : Session) : DecidablePred s.OpensWithin
  | .openRecord _ => inferInstanceAs (Decidable (∀ r ∈ _, _))
  | .edit _ _ | .setLanguage _ | .save | .next | .previous | .navigate _ _ | .addRecord _ _
  | .deleteRecord _ | .finish | .cancel => .isTrue trivial

theorem ownedInTurn_perform {a : SessionAction} (h : s.data.OwnedInTurn s.active)
    (hfresh : s.Fresh a) (hopens : s.OpensWithin a) :
    (s.perform a).data.OwnedInTurn (s.perform a).active := by
  have hc : s.commit.data.OwnedInTurn s.active := h.of_frames_eq (frames_commit s)
  have hactive : s.commit.active = s.active := commit_active s
  have hout := s.outcome_perform a
  generalize s.perform a = t at hout
  cases hout with
  | failed | edited | spoken => exact h
  | nextPage | nextStep | nextEnd | previousPage | previousStep | previousEnd | navigatedWithin =>
    exact hactive.symm ▸ hc
  | navigated | cancelled => trivial
  | saved =>
    obtain ⟨failures, hsave⟩ := s.save_eq
    rw [hsave]
    exact hactive.symm ▸ hc
  | finished =>
    obtain ⟨failures, hsave⟩ := s.save_eq
    rw [hsave]
    show s.commit.data.OwnedInTurn s.commit.active.tail
    rw [hactive]
    cases htail : s.active with
    | nil => trivial
    | cons a around =>
      rw [htail] at hc
      exact hc.2
  | @added field fresh f target step =>
    refine ⟨⟨_, FormData.record?_addRecord_self (ne_id_of_commit hfresh), ?_⟩, ?_⟩
    · exact congrArg (fun active => active.head?.map (·.id)) hactive.symm
    · exact hactive.symm ▸ hc.addRecord _
  | @opened id r step hrecord =>
    obtain ⟨r', hr', hframe⟩ := FormData.record?_of_frames_eq (frames_commit s) hrecord
    refine ⟨⟨r', hr', ?_⟩, hactive.symm ▸ hc⟩
    rw [(ChildRecord.frame_eq_iff.1 hframe).2.2.1, hactive]
    exact hopens r hrecord
  | deletedOther _ hactive => exact h.removeRecord hactive
  | deletedActive _ hremoved =>
    obtain ⟨inner, a, hsplit, -⟩ := exists_keptActive hremoved
    rw [hsplit, ← List.singleton_append, ← List.append_assoc] at h
    exact h.of_append.removeRecord fun b hb => (mem_keptActive hb).2

/-- A session that a run comes to in which records are opened only in the scope that owns them. -/
def ReachedWithin (f : Form) (s : Session) : Prop :=
  ∃ s₀ actions, start f = .ok s₀ ∧ s₀.FreshRun actions ∧ s₀.Along OpensWithin actions ∧
    s₀.run actions = s

theorem ReachedWithin.ownedInTurn {f : Form} (h : ReachedWithin f s) :
    s.data.OwnedInTurn s.active := by
  obtain ⟨s₀, actions, hstart, hfresh, hopens, rfl⟩ := h
  refine run_induction_along (motive := fun s => s.data.OwnedInTurn s.active)
    (fun s a hs hf ho => ownedInTurn_perform hs hf ho) ?_ hfresh hopens
  obtain ⟨first, rest, -, rfl⟩ := eq_of_start hstart
  trivial

/-! ## Deleting -/

/-- In a session that a run comes to, deleting a record that is there leaves the edit in progress as
it is exactly when no record being edited is nested in the deleted one; else the outermost edit of
one that is ends, with all those begun since, and the draft goes. When records were opened only in
the scope that owns them, it is enough that the innermost record being edited is not nested in the
deleted one. -/
theorem undisturbed_deleteRecord_iff {f : Form} (h : Reached f s) {r : ChildRecord}
    (hr : r ∈ s.data.records) :
    ∃ after, s.deleteRecord r.id = .ok (r, after) ∧
      (s.Undisturbed after ↔ ∀ a ∈ s.active, ¬ s.data.NestedIn r.id a.id) ∧
      (¬ s.Undisturbed after ↔ s.Ended r.id after) ∧
      (ReachedWithin f s →
        (∀ a, s.active.head? = some a → ¬ s.data.NestedIn r.id a.id) → s.Undisturbed after) := by
  obtain ⟨more, hremoved⟩ := FormData.exists_removed_eq_cons h.linked hr
  obtain ⟨after, hdelete, -⟩ := exists_deleteRecord hremoved
  have hcases := undisturbed_or_ended h.inPlace hr hdelete
  have hiff : s.Undisturbed after ↔ ∀ a ∈ s.active, ¬ s.data.NestedIn r.id a.id := by
    rcases hcases with ⟨hnone, hsame⟩ | hended
    · exact iff_of_true hsame hnone
    · refine iff_of_false (not_undisturbed_of_ended hended) fun hnone => ?_
      obtain ⟨inner, a, hsplit, hnested⟩ := hended.active
      exact hnone a (by simp [hsplit]) hnested
  refine ⟨after, hdelete, hiff, ⟨fun hnot => ?_, not_undisturbed_of_ended⟩,
    fun hwithin hinnermost => hiff.2 fun b hb hnested => ?_⟩
  · exact hcases.resolve_left fun hsame => hnot hsame.2
  · cases hactive : s.active with
    | nil => simp [hactive] at hb
    | cons a around =>
      have hchain := hwithin.ownedInTurn
      rw [hactive] at hb hchain
      refine hinnermost a (by rw [hactive]; rfl) ?_
      rcases List.mem_cons.1 hb with rfl | hb
      · exact hnested
      · exact hchain.nestedIn_innermost hb hnested

/-! ## Deleting around an author -/

/-- A run into an employer of the second of two authors. -/
def twoAuthorsRun : List SessionAction := [
  .addRecord "author" "a", .finish, .addRecord "author" "b", .addRecord "employer" "c",
  .edit "name" (.text "Mill")]

theorem place_twoAuthorsRun : (start (Form.compile nestedPackage)).toOption.any fun s =>
    s.Along OpensWithin twoAuthorsRun ∧
      ((s.run twoAuthorsRun).data.record? "a").isSome ∧
      (s.run twoAuthorsRun).active.map (·.id) = ["c", "b"] ∧
      ¬ (s.run twoAuthorsRun).data.NestedIn "a" "c" := by cbv

/-- Deleting the first author leaves what is entered for the employer of the second. -/
theorem undisturbed_deleteRecord_employer : ∃ s r after, Reached (Form.compile nestedPackage) s ∧
    ReachedWithin (Form.compile nestedPackage) s ∧ r ∈ s.data.records ∧
    s.active.map (·.id) = ["c", "b"] ∧ s.deleteRecord "a" = .ok (r, after) ∧
    s.Undisturbed after := by
  obtain ⟨s₀, hstart, -⟩ := exists_start steps_nestedPackage
  have hfresh : s₀.FreshRun twoAuthorsRun := freshRun_of_start hstart (by decide)
  obtain ⟨hopens, hrecord, hactive, hnested⟩ := of_start hstart place_twoAuthorsRun
  have h : Reached (Form.compile nestedPackage) (s₀.run twoAuthorsRun) :=
    ⟨s₀, twoAuthorsRun, hstart, hfresh, rfl⟩
  have hwithin : ReachedWithin (Form.compile nestedPackage) (s₀.run twoAuthorsRun) :=
    ⟨s₀, twoAuthorsRun, hstart, hfresh, hopens, rfl⟩
  obtain ⟨r, hr⟩ := Option.isSome_iff_exists.1 hrecord
  have hid : r.id = "a" := FormData.id_of_record? hr
  have hmem := FormData.mem_of_record? hr
  obtain ⟨after, hdelete, -, -, hsame⟩ := undisturbed_deleteRecord_iff h hmem
  rw [hid] at hdelete hsame
  refine ⟨_, r, after, h, hwithin, hmem, hactive, hdelete, hsame hwithin fun x hx hin => ?_⟩
  have hx : x.id = "c" := by
    have hhead := congrArg List.head? hactive
    rw [List.head?_map, hx] at hhead
    simpa using hhead
  exact hnested (hx ▸ hin)

/-- A run in which the first author is opened while the second one is being edited. -/
def reopeningRun : List SessionAction := [
  .addRecord "author" "a", .finish, .addRecord "author" "b", .openRecord "a",
  .edit "name" (.text "Ada")]

theorem end_reopeningRun : (start (Form.compile nestedPackage)).toOption.any fun s =>
    ((s.run reopeningRun).data.record? "b").isSome ∧
      (s.run reopeningRun).active.map (·.id) = ["a", "b"] ∧
      ¬ (s.run reopeningRun).data.NestedIn "b" "a" ∧
      (s.run reopeningRun).step = 1 ∧
      (s.run reopeningRun).value? "name" = some (.text "Ada") ∧
      ((s.run reopeningRun).deleteRecord "b").toOption.any fun (_, after) =>
        after.active = [] ∧ after.step = 0 ∧ after.value? "name" = none := by cbv

/-- Deleting the second author ends the edit of the first one, which is not nested in it, and the
name that was entered is lost. -/
theorem delete_around_reopened : ∃ s r x after, Reached (Form.compile nestedPackage) s ∧
    r ∈ s.data.records ∧ r.id = "b" ∧ s.active.map (·.id) = ["a", "b"] ∧
    ¬ s.data.NestedIn "b" "a" ∧ s.deleteRecord "b" = .ok (x, after) ∧ after.active = [] ∧
    after.step ≠ s.step ∧ s.value? "name" = some (.text "Ada") ∧ after.value? "name" = none := by
  obtain ⟨s₀, hstart, -⟩ := exists_start steps_nestedPackage
  have h : Reached (Form.compile nestedPackage) (s₀.run reopeningRun) :=
    reached_of_start hstart (by decide)
  obtain ⟨hrecord, hactive, hnested, hstep, hvalue, hdelete⟩ := of_start hstart end_reopeningRun
  obtain ⟨r, hr⟩ := Option.isSome_iff_exists.1 hrecord
  cases hafter : (s₀.run reopeningRun).deleteRecord "b" with
  | error e => simp [hafter, Except.toOption] at hdelete
  | ok p =>
    simp only [hafter, Except.toOption, Option.any_some, decide_eq_true_eq] at hdelete
    obtain ⟨hnil, hzero, hlost⟩ := hdelete
    have hmoved : p.2.step ≠ (s₀.run reopeningRun).step := by
      rw [hzero, hstep]
      decide
    exact ⟨_, r, p.1, p.2, h, FormData.mem_of_record? hr, FormData.id_of_record? hr, hactive,
      hnested, hafter, hnil, hmoved, hvalue, hlost⟩

end Session
end Questionnaire
