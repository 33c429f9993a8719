import Mathlib
import Questionnaire.Proofs.Step.Tree

/-
  The ways down the trees of a form are the simple paths of references.

  Below a step the tree goes on to the steps that it references and that are still free, so a way
  down is a path of references that comes to no step twice (`mem_paths_grow`). It cannot be longer
  than there are steps, which is what ends the tree on circles of references too. No path is taken
  twice, as the trees below a step have distinct steps at their roots (`nodup_paths_grow`). These
  roots stand in the order in which the step first references them (`pairwise_children_grow`).
-/

namespace Questionnaire

open Relation

namespace StepTree

/-! ## The paths of a tree -/

mutual

/-- The ways from the root of a tree to each of its nodes, told by the steps they go through. -/
def paths : StepTree → List (List String)
  | node id children => [id] :: (pathsOfList children).map (id :: ·)

/-- The ways from the roots of trees to each of their nodes. -/
def pathsOfList : List StepTree → List (List String)
  | [] => []
  | t :: ts => t.paths ++ pathsOfList ts

end

theorem mem_pathsOfList {ts : List StepTree} {p : List String} :
    p ∈ pathsOfList ts ↔ ∃ t ∈ ts, p ∈ t.paths := by
  induction ts with
  | nil => simp [pathsOfList]
  | cons t ts ih => rw [pathsOfList, List.mem_append, ih, List.exists_mem_cons_iff]

theorem paths_eq (t : StepTree) : t.paths = [t.id] :: (pathsOfList t.children).map (t.id :: ·) := by
  cases t
  rw [paths]
  rfl

theorem mem_paths_iff {t : StepTree} {p : List String} :
    p ∈ t.paths ↔ p = [t.id] ∨ ∃ c ∈ t.children, ∃ q ∈ c.paths, p = t.id :: q := by
  rw [paths_eq, List.mem_cons, List.mem_map]
  simp only [mem_pathsOfList, eq_comm (a := p)]
  grind

theorem head?_of_mem_paths {t : StepTree} {p : List String} (h : p ∈ t.paths) :
    p.head? = some t.id := by
  rcases mem_paths_iff.1 h with rfl | ⟨_, _, _, _, rfl⟩ <;> rfl

/-- Trees with distinct roots share no path. -/
theorem nodup_pathsOfList {ts : List StepTree} (hroots : (ts.map id).Nodup)
    (hpaths : ∀ t ∈ ts, t.paths.Nodup) : (pathsOfList ts).Nodup := by
  induction ts with
  | nil => exact List.nodup_nil
  | cons t ts ih =>
    obtain ⟨hroot, hroots⟩ := List.nodup_cons.1 hroots
    rw [pathsOfList]
    refine List.nodup_append.2 ⟨hpaths t List.mem_cons_self,
      ih hroots fun u hu => hpaths u (List.mem_cons_of_mem _ hu), ?_⟩
    rintro p hp _ hq rfl
    obtain ⟨u, hu, hq⟩ := mem_pathsOfList.1 hq
    have hid : t.id = u.id :=
      Option.some.inj ((head?_of_mem_paths hp).symm.trans (head?_of_mem_paths hq))
    exact hroot (hid ▸ List.mem_map_of_mem hu)

theorem nodup_paths {t : StepTree} (hroots : (t.children.map id).Nodup)
    (hpaths : ∀ c ∈ t.children, c.paths.Nodup) : t.paths.Nodup := by
  rw [paths_eq, List.nodup_cons]
  -- The way to the root has one member, those below it have more.
  refine ⟨fun hmem => ?_, (nodup_pathsOfList hroots hpaths).map (List.cons_injective)⟩
  obtain ⟨q, hq, heq⟩ := List.mem_map.1 hmem
  obtain ⟨c, _, hq⟩ := mem_pathsOfList.1 hq
  rw [(List.cons.inj heq).2] at hq
  cases head?_of_mem_paths hq

/-! ## The order of first occurrences -/

theorem idxOf_filter_lt_iff {α : Type} [DecidableEq α] {keep : α → Bool} {a b : α}
    (ha : keep a) (hb : keep b) {l : List α} :
    (l.filter keep).idxOf a < (l.filter keep).idxOf b ↔ l.idxOf a < l.idxOf b := by
  induction l with
  | nil => simp
  | cons c l ih =>
    by_cases hc : keep c
    · rw [List.filter_cons_of_pos hc]
      simp only [List.idxOf_cons]
      grind
    · have hca : c ≠ a := fun h => hc (h ▸ ha)
      have hcb : c ≠ b := fun h => hc (h ▸ hb)
      rw [List.filter_cons_of_neg hc, ih, List.idxOf_cons_ne _ hca, List.idxOf_cons_ne _ hcb]
      omega

/-- What is left of a list without repetitions stands in the order of first occurrences. -/
theorem pairwise_idxOf_eraseDups {α : Type} [DecidableEq α] (l : List α) :
    l.eraseDups.Pairwise fun a b => l.idxOf a < l.idxOf b := by
  induction l using StepOrder.eraseDups_induction with
  | nil => simp
  | cons x l ih =>
    let keep : α → Bool := fun b => !b == x
    have hkeep {b : α} (hb : b ∈ (l.filter keep).eraseDups) : keep b :=
      (List.mem_filter.1 (List.mem_eraseDups.1 hb)).2
    have hne {b : α} (hb : b ∈ (l.filter keep).eraseDups) : x ≠ b := by
      rintro rfl
      simpa [keep] using hkeep hb
    rw [List.eraseDups_cons, List.pairwise_cons]
    refine ⟨fun b hb => ?_, ih.imp_of_mem fun {a b} ha hb hab => ?_⟩
    · rw [List.idxOf_cons_self, List.idxOf_cons_ne _ (hne hb)]
      exact Nat.succ_pos _
    · rw [List.idxOf_cons_ne _ (hne ha), List.idxOf_cons_ne _ (hne hb)]
      exact Nat.succ_lt_succ ((idxOf_filter_lt_iff (hkeep ha) (hkeep hb)).1 hab)

/-! ## The paths below a step -/

section Grow

variable {free : List Step} {s t c : Step} {p : List String} {way : List Step}

/-- The trees below a step stand in the order in which it references their roots. -/
theorem sublist_children_grow (free : List Step) (s : Step) :
    ((grow free s).children.map id).Sublist s.targets.eraseDups := by
  have hroots : (fun i => ((free.find? (·.id = i)).map (grow (without free i))).map id) =
      Option.guard fun i => (free.find? (·.id = i)).isSome := by
    funext i
    cases hfind : free.find? (·.id = i) with
    | none => simp [Option.guard, hfind]
    | some c =>
      have hid : c.id = i := by simpa using List.find?_some hfind
      simp [Option.guard, hfind, id_grow, hid]
  rw [children_grow, List.map_filterMap, hroots, List.filterMap_eq_filter]
  exact List.filter_sublist

theorem pairwise_children_grow (free : List Step) (s : Step) :
    ((grow free s).children.map id).Pairwise fun a b => s.targets.idxOf a < s.targets.idxOf b :=
  (pairwise_idxOf_eraseDups s.targets).sublist (sublist_children_grow free s)

theorem nodup_children_grow (free : List Step) (s : Step) :
    ((grow free s).children.map id).Nodup := by
  refine (pairwise_children_grow free s).imp ?_
  rintro a _ hlt rfl
  exact Nat.lt_irrefl _ hlt

/-- No path is taken twice. -/
theorem nodup_paths_grow (h : (free.map (·.id)).Nodup) : (grow free s).paths.Nodup := by
  induction free, s using grow.induct with
  | case1 free s ih =>
    refine nodup_paths (nodup_children_grow free s) fun t ht => ?_
    obtain ⟨c, href, rfl⟩ := (mem_children_grow h).1 ht
    exact ih c.id c ((find?_iff h).2 ⟨href.1, rfl⟩) (nodup_ids_without h c.id)

theorem references_without_iff {id : String} :
    References (without free id) s t ↔ References free s t ∧ t.id ≠ id := by
  rw [References, References, without, List.mem_filter, decide_eq_true_iff]
  exact and_right_comm

/-- A way through free steps goes without one of them exactly when it does not come to it. -/
theorem isChain_without_iff {id : String} :
    (s :: way).IsChain (References (without free id)) ↔
      (s :: way).IsChain (References free) ∧ id ∉ way.map (·.id) := by
  induction way generalizing s with
  | nil => simp
  | cons t way ih =>
    rw [List.isChain_cons_cons, List.isChain_cons_cons, ih, references_without_iff, List.map_cons,
      List.mem_cons, not_or]
    grind

/-- The ways down the tree of a step are the paths from it through free steps that come to no step
twice. -/
theorem mem_paths_grow (h : (free.map (·.id)).Nodup) :
    p ∈ (grow free s).paths ↔
      ∃ way : List Step, (s :: way).IsChain (References free) ∧ (way.map (·.id)).Nodup ∧
        p = (s :: way).map (·.id) := by
  induction free, s using grow.induct generalizing p with
  | case1 free s ih =>
    have hbelow {c : Step} (href : References free s c) {q : List String} :
        q ∈ (grow (without free c.id) c).paths ↔
          ∃ way : List Step, (c :: way).IsChain (References (without free c.id)) ∧
            (way.map (·.id)).Nodup ∧ q = (c :: way).map (·.id) :=
      ih c.id c ((find?_iff h).2 ⟨href.1, rfl⟩) (nodup_ids_without h c.id)
    rw [mem_paths_iff, id_grow]
    constructor
    · rintro (rfl | ⟨t, ht, q, hq, rfl⟩)
      · exact ⟨[], List.isChain_singleton _, List.nodup_nil, rfl⟩
      · obtain ⟨c, href, rfl⟩ := (mem_children_grow h).1 ht
        obtain ⟨way, hchain, hnodup, rfl⟩ := (hbelow href).1 hq
        obtain ⟨hchain, hnew⟩ := isChain_without_iff.1 hchain
        exact ⟨c :: way, List.isChain_cons_cons.2 ⟨href, hchain⟩, List.nodup_cons.2 ⟨hnew, hnodup⟩,
          rfl⟩
    · rintro ⟨way, hchain, hnodup, rfl⟩
      cases way with
      | nil => exact .inl rfl
      | cons c way =>
        obtain ⟨href, hchain⟩ := List.isChain_cons_cons.1 hchain
        obtain ⟨hnew, hnodup⟩ := List.nodup_cons.1 hnodup
        refine .inr ⟨_, (mem_children_grow h).2 ⟨c, href, rfl⟩, _, (hbelow href).2 ⟨way,
          isChain_without_iff.2 ⟨hchain, hnew⟩, hnodup, rfl⟩, rfl⟩

/-- A tree stands right below another one. -/
def HasChild (t u : StepTree) : Prop := u ∈ t.children

/-- Every tree below that of a step is the tree of a step, with fewer free steps. -/
theorem exists_grow_of_reach {u : StepTree} (h : (free.map (·.id)).Nodup)
    (hreach : ReflTransGen HasChild (grow free s) u) :
    ∃ free' t, free'.Sublist free ∧ (t = s ∨ t ∈ free) ∧ grow free' t = u := by
  induction hreach with
  | refl => exact ⟨free, s, List.Sublist.refl _, .inl rfl, rfl⟩
  | tail _ hchild ih =>
    obtain ⟨free', t, hsub, -, rfl⟩ := ih
    obtain ⟨c, href, rfl⟩ := (mem_children_grow (h.sublist (hsub.map _))).1 hchild
    exact ⟨_, c, List.filter_sublist.trans hsub, .inr (hsub.subset href.1), rfl⟩

end Grow

/-! ## The paths of a form -/

section Steps

variable {steps : List Step} {way : List Step} {p : List String}

/-- The steps that paths start from: the parent steps or, without any, the first step. -/
def IsRoot (steps : List Step) (s : Step) : Prop :=
  s ∈ parentSteps steps ∨ parentSteps steps = [] ∧ steps.head? = some s

/-- A path of references from a root that comes to no step twice. -/
structure SimplePath (steps : List Step) (way : List Step) : Prop where
  starts : ∃ s, way.head? = some s ∧ IsRoot steps s
  follows : way.IsChain (References steps)
  distinct : (way.map (·.id)).Nodup

theorem mem_roots_iff {s : Step} : s ∈ roots steps ↔ IsRoot steps s := by
  unfold roots IsRoot
  cases hparents : parentSteps steps with
  | nil => cases steps <;> simp [eq_comm]
  | cons r rs => simp

theorem nodup_map_id_roots (h : (steps.map (·.id)).Nodup) : ((roots steps).map (·.id)).Nodup := by
  refine h.sublist (List.Sublist.map _ ?_)
  unfold roots
  split
  · exact List.take_sublist 1 steps
  · exact List.filter_sublist

theorem subset_of_isChain {s : Step} (h : (s :: way).IsChain (References steps)) : way ⊆ steps := by
  induction way generalizing s with
  | nil => exact List.nil_subset _
  | cons t way ih =>
    obtain ⟨href, hchain⟩ := List.isChain_cons_cons.1 h
    exact List.cons_subset.2 ⟨href.1, ih hchain⟩

theorem SimplePath.subset (h : SimplePath steps way) : way ⊆ steps := by
  obtain ⟨⟨r, hr, hroot⟩, hfollows, -⟩ := h
  cases way with
  | nil => exact List.nil_subset _
  | cons s way =>
    cases hr
    exact List.cons_subset.2 ⟨roots_subset steps (mem_roots_iff.2 hroot),
      subset_of_isChain hfollows⟩

theorem SimplePath.length_le (h : SimplePath steps way) : way.length ≤ steps.length :=
  (h.distinct.of_map.subperm h.subset).length_le

theorem mem_pathsOfList_ofSteps (h : (steps.map (·.id)).Nodup) :
    p ∈ pathsOfList (ofSteps steps) ↔ ∃ way, SimplePath steps way ∧ way.map (·.id) = p := by
  rw [mem_pathsOfList, ofSteps_eq]
  constructor
  · rintro ⟨t, ht, hp⟩
    obtain ⟨r, hr, rfl⟩ := List.mem_map.1 ht
    obtain ⟨way, hchain, hnodup, rfl⟩ := (mem_paths_grow (nodup_ids_without h r.id)).1 hp
    obtain ⟨hchain, hnew⟩ := isChain_without_iff.1 hchain
    exact ⟨r :: way, ⟨⟨r, rfl, mem_roots_iff.1 hr⟩, hchain, List.nodup_cons.2 ⟨hnew, hnodup⟩⟩, rfl⟩
  · rintro ⟨way, ⟨⟨r, hr, hroot⟩, hchain, hnodup⟩, rfl⟩
    cases way with
    | nil => cases hr
    | cons s way =>
      cases hr
      obtain ⟨hnew, hnodup⟩ := List.nodup_cons.1 hnodup
      exact ⟨_, List.mem_map_of_mem (mem_roots_iff.2 hroot),
        (mem_paths_grow (nodup_ids_without h r.id)).2
          ⟨way, isChain_without_iff.2 ⟨hchain, hnew⟩, hnodup, rfl⟩⟩

theorem nodup_pathsOfList_ofSteps (h : (steps.map (·.id)).Nodup) :
    (pathsOfList (ofSteps steps)).Nodup := by
  rw [ofSteps_eq]
  refine nodup_pathsOfList ?_ fun t ht => ?_
  · rw [List.map_map, Function.comp_def]
    simp only [id_grow]
    exact nodup_map_id_roots h
  · obtain ⟨r, -, rfl⟩ := List.mem_map.1 ht
    exact nodup_paths_grow (nodup_ids_without h r.id)

/-- Of steps with distinct ids, the ways from the roots of their trees to each node, read as ids,
are exactly the simple paths of references from a parent step, or from the first step when there is
no parent step, and every such path is taken once. None is longer than there are steps, so the trees
end also on circles. The trees right below a step stand in the order in which the step first
references their roots. -/
theorem paths_are_simple (steps : List Step) (h : (steps.map (·.id)).Nodup) :
    (∀ p, p ∈ pathsOfList (ofSteps steps) ↔ ∃ way, SimplePath steps way ∧ way.map (·.id) = p) ∧
    (pathsOfList (ofSteps steps)).Nodup ∧
    (∀ p ∈ pathsOfList (ofSteps steps), p.length ≤ steps.length) ∧
    ∀ root ∈ ofSteps steps, ∀ t, ReflTransGen HasChild root t →
      ∃ s ∈ steps, s.id = t.id ∧
        (t.children.map id).Pairwise fun a b => s.targets.idxOf a < s.targets.idxOf b := by
  refine ⟨fun p => mem_pathsOfList_ofSteps h, nodup_pathsOfList_ofSteps h, fun p hp => ?_,
    fun root hroot t hreach => ?_⟩
  · obtain ⟨way, hsimple, rfl⟩ := (mem_pathsOfList_ofSteps h).1 hp
    rw [List.length_map]
    exact hsimple.length_le
  · rw [ofSteps_eq] at hroot
    obtain ⟨r, hr, rfl⟩ := List.mem_map.1 hroot
    obtain ⟨free, s, hsub, hs, rfl⟩ := exists_grow_of_reach (nodup_ids_without h r.id) hreach
    refine ⟨s, ?_, (id_grow free s).symm, pairwise_children_grow free s⟩
    rcases hs with rfl | hs
    · exact roots_subset steps hr
    · exact List.mem_of_mem_filter hs

/-- A step with a reference field for each target. -/
def referring (id : String) (targets : List String) : Step where
  id
  pages := [{ sections := [{
    fields := targets.map fun target => { id := target, kind := .reference, target := some target }
  }] }]

/-- Works with letters and persons; persons lead to letters and to persons, letters to persons. -/
def correspondence : List Step := [
  referring "work" ["letter", "person", "letter"],
  referring "person" ["letter", "person"],
  referring "letter" ["person"]]

/-- Letters and persons lead to each other, and stand below each other and themselves only once. -/
theorem paths_are_simple_correspondence :
    (correspondence.map (·.id)).Nodup ∧
      pathsOfList (ofSteps correspondence) = [["work"], ["work", "letter"],
        ["work", "letter", "person"], ["work", "person"], ["work", "person", "letter"]] ∧
      ∃ way, SimplePath correspondence way ∧ way.map (·.id) = ["work", "person", "letter"] := by
  have hids : (correspondence.map (·.id)).Nodup := by decide
  have hpaths : pathsOfList (ofSteps correspondence) = [["work"], ["work", "letter"],
      ["work", "letter", "person"], ["work", "person"], ["work", "person", "letter"]] := by cbv
  refine ⟨hids, hpaths, ((paths_are_simple correspondence hids).1 _).1 ?_⟩
  rw [hpaths]
  decide

end Steps

end StepTree
end Questionnaire
