import Mathlib
import Questionnaire.Proofs.Step.Parents

/-
  Steps stand in order of their depths.

  The depth of a step is the length of the longest chain of references that leads to it. Nothing in
  the placing of positions computes depths. But a position becomes ready when the last one that
  leads to it is placed, and joins the queue at its end; so if what is placed and ready stands in
  order of depth, it does so after the next placing (`ordered_release`, `ordered_advance`).
  `ordered_placed` carries this through a run, for any numbering of positions that behaves like a
  depth (`IsDepth`), and `levels_compile` says what it means for a form.
-/

namespace Questionnaire

namespace StepOrder

/-! ## Placing in order of depth -/

/-- A numbering of positions: along every arc it grows, and where it is not zero by one along some
arc. -/
structure IsDepth (edges : List (List Nat)) (depth : Nat → Nat) : Prop where
  lt : ∀ i j, Arc edges i j → depth i < depth j
  attained : ∀ j, depth j ≠ 0 → ∃ i, Arc edges i j ∧ depth j = depth i + 1

/-- What is placed and what is ready stands in order of depth. -/
def Ordered (depth : Nat → Nat) (p : Progress) : Prop :=
  (p.placed ++ p.ready).Pairwise fun i j => depth i ≤ depth j

section Ordered

variable {edges : List (List Nat)} {depth : Nat → Nat} {p : Progress} {pending : List Nat} {i j : Nat}

/-- All that leads to a placed or ready position is placed. -/
theorem mem_placed_of_arc_of_free (h : Consistent edges p pending)
    (hj : j ∈ p.placed ++ p.ready) (ha : Arc edges i j) : i ∈ p.placed := by
  obtain ⟨hlt, hzero⟩ := (h.free j).1 hj
  have hcount := h.degree j hlt
  rw [hzero] at hcount
  exact waitingFor_eq_empty_iff.1 (by omega) i ha

/-- What is placed or ready lies at most one deeper than the last position placed. -/
theorem depth_le_of_free (hd : IsDepth edges depth) (h : Consistent edges p pending)
    (hlast : ∀ k ∈ p.placed, depth k ≤ depth i) (hj : j ∈ p.placed ++ p.ready) :
    depth j ≤ depth i + 1 := by
  rcases Nat.eq_zero_or_pos (depth j) with hzero | hpos
  · omega
  · obtain ⟨k, ha, hk⟩ := hd.attained j (by omega)
    have := hlast k (mem_placed_of_arc_of_free h hj ha)
    omega

theorem ordered_release (hd : IsDepth edges depth) (h : Consistent edges p pending)
    (hlast : ∀ k ∈ p.placed, depth k ≤ depth i) (ha : Arc edges i j) (ho : Ordered depth p) :
    Ordered depth (release p j) := by
  unfold Ordered release
  dsimp only
  split
  · rw [← List.append_assoc, List.pairwise_append]
    refine ⟨ho, List.pairwise_singleton _ _, fun k hk l hl => ?_⟩
    rw [List.mem_singleton.1 hl]
    have := depth_le_of_free hd h hlast hk
    have := hd.lt i j ha
    omega
  · exact ho

theorem ordered_foldl_release (hd : IsDepth edges depth) (h : Consistent edges p pending)
    (hlast : ∀ k ∈ p.placed, depth k ≤ depth i) (hnd : pending.Nodup)
    (hpending : ∀ j ∈ pending, Arc edges i j) (hg : IsGraph edges) (ho : Ordered depth p) :
    Ordered depth (pending.foldl release p) := by
  induction pending generalizing p with
  | nil => exact ho
  | cons j pending ih =>
    obtain ⟨hnot, hnd⟩ := List.nodup_cons.1 hnd
    have ha := hpending j List.mem_cons_self
    rw [List.foldl_cons]
    exact ih (consistent_release h (hg.bound i j ha) hnot) hlast hnd
      (fun k hk => hpending k (List.mem_cons_of_mem _ hk)) (ordered_release hd h hlast ha ho)

theorem ordered_advance (hg : IsGraph edges) (hd : IsDepth edges depth)
    (h : Consistent edges p []) (ho : Ordered depth p) : Ordered depth (advance edges p) := by
  unfold advance
  split
  · exact ho
  · next i ready hready =>
    have hlist : p.placed ++ [i] ++ ready = p.placed ++ p.ready := by rw [hready]; simp
    -- The position placed last is the deepest one placed.
    have hlast : ∀ k ∈ p.placed ++ [i], depth k ≤ depth i := by
      intro k hk
      rcases List.mem_append.1 hk with hk | hk
      · exact (List.pairwise_append.1 ho).2.2 k hk i (hready ▸ List.mem_cons_self)
      · rw [List.mem_singleton.1 hk]
    have hnext : Ordered depth (placeNext p i ready) := by
      show (p.placed ++ [i] ++ ready).Pairwise _
      rw [hlist]
      exact ho
    exact ordered_foldl_release hd (consistent_placeNext h hready) hlast (hg.nodup i)
      (fun _ hj => hj) hg hnext

theorem ordered_placeUpTo (hg : IsGraph edges) (hd : IsDepth edges depth) (n : Nat)
    (h : Consistent edges p []) (ho : Ordered depth p) :
    Ordered depth (placeUpTo edges n p) := by
  induction n generalizing p with
  | zero => exact ho
  | succ n ih => exact ih (advance?_eq hg h).2 (ordered_advance hg hd h ho)

theorem ordered_placed (hg : IsGraph edges) (hd : IsDepth edges depth) :
    (place edges).placed.Pairwise fun i j => depth i ≤ depth j := by
  have hstart : Ordered depth (start edges) := by
    have hzero (j : Nat) (hj : j ∈ (start edges).ready) : depth j = 0 := by
      by_contra hne
      obtain ⟨i, ha, -⟩ := hd.attained j hne
      exact (mem_start_ready.1 hj).2 i ha
    refine List.pairwise_of_forall_mem_list fun i hi j hj => ?_
    exact (hzero i hi).le.trans (Nat.zero_le _)
  have hend := ordered_placeUpTo hg hd edges.length consistent_start hstart
  exact (List.pairwise_append.1 hend).1

end Ordered

/-! ## Chains of references -/

/-- A chain of `n` references between the steps of a list leads to a step. -/
inductive ChainTo (steps : List Step) : Nat → Step → Prop
  | first {s} (hs : s ∈ steps) : ChainTo steps 0 s
  | next {n s t} (h : ChainTo steps n s) (ht : t ∈ steps) (href : s.referencesStep t.id) :
      ChainTo steps (n + 1) t

/-- The length of the longest chain of references that leads to a step. -/
noncomputable def depth (steps : List Step) (s : Step) : Nat := sSup {n | ChainTo steps n s}

section Chains

variable {steps : List Step} {s t : Step} {n : Nat}

theorem ChainTo.mem (h : ChainTo steps n s) : s ∈ steps := by
  cases h with
  | first hs => exact hs
  | next _ ht => exact ht

theorem ChainTo.of_subset {steps' : List Step} (hsub : steps ⊆ steps') (h : ChainTo steps n s) :
    ChainTo steps' n s := by
  induction h with
  | first hs => exact .first (hsub hs)
  | next _ ht href ih => exact .next ih (hsub ht) href

/-- Chains do not depend on the order of the steps. -/
theorem chainTo_of_perm {steps' : List Step} (h : steps.Perm steps') :
    ChainTo steps n s ↔ ChainTo steps' n s :=
  ⟨.of_subset h.subset, .of_subset h.symm.subset⟩

theorem depth_of_perm {steps' : List Step} (h : steps.Perm steps') : depth steps = depth steps' := by
  funext s
  simp only [depth, chainTo_of_perm h]

variable (hids : (steps.map (·.id)).Nodup) (hc : (ofSteps steps).cycle = none)

include hids hc

/-- A chain is no longer than the number of positions placed before the step that it leads to. -/
theorem ChainTo.le_idxOf (h : ChainTo steps n s) {j : Nat} (hj : steps[j]? = some s) :
    n ≤ (place (edges steps)).placed.idxOf j := by
  induction h generalizing j with
  | first => exact Nat.zero_le _
  | next h ht href ih =>
    obtain ⟨i, hi⟩ := List.mem_iff_getElem?.1 h.mem
    have ha := arc_edges_iff.2 ((leads_iff hids).2 ⟨_, _, hi, hj, href⟩)
    have hplaced := (perm_placed hc).mem_iff.2
      (List.mem_range.2 (List.getElem?_eq_some_iff.1 hj).1)
    exact Nat.lt_of_le_of_lt (ih hi)
      (idxOf_lt_of_arc (consistent_place (isGraph_edges steps)) ha hplaced)

theorem isGreatest_depth (hs : s ∈ steps) :
    IsGreatest {n | ChainTo steps n s} (depth steps s) := by
  obtain ⟨j, hj⟩ := List.mem_iff_getElem?.1 hs
  have hbound : BddAbove {n | ChainTo steps n s} :=
    ⟨_, fun _ hn => ChainTo.le_idxOf hids hc hn hj⟩
  exact ⟨Nat.sSup_mem ⟨0, .first hs⟩ hbound, fun _ hn => le_csSup hbound hn⟩

theorem depth_lt (hs : s ∈ steps) (ht : t ∈ steps) (href : s.referencesStep t.id) :
    depth steps s < depth steps t :=
  (isGreatest_depth hids hc ht).2 (.next (isGreatest_depth hids hc hs).1 ht href)

/-- The last reference of a longest chain comes from a step that lies one less deep. -/
theorem exists_depth_eq (ht : t ∈ steps) (hne : depth steps t ≠ 0) :
    ∃ s ∈ steps, s.referencesStep t.id ∧ depth steps t = depth steps s + 1 := by
  obtain ⟨n, hn⟩ := Nat.exists_eq_succ_of_ne_zero hne
  have hchain : ChainTo steps (depth steps t) t := (isGreatest_depth hids hc ht).1
  rw [hn] at hchain
  cases hchain with
  | @next _ s _ h _ href =>
    have hle : n ≤ depth steps s := (isGreatest_depth hids hc h.mem).2 h
    have hlt := depth_lt hids hc h.mem ht href
    exact ⟨s, h.mem, href, by omega⟩

theorem depth_eq_zero_iff (hs : s ∈ steps) :
    depth steps s = 0 ↔ isReferenced steps s.id = false := by
  rw [← not_iff_not, Bool.not_eq_false, isReferenced, List.any_eq_true]
  constructor
  · intro hne
    obtain ⟨t, ht, href, -⟩ := exists_depth_eq hids hc hs hne
    exact ⟨t, ht, href⟩
  · rintro ⟨t, ht, href⟩
    have := depth_lt hids hc ht hs href
    omega

theorem isDepth_edges :
    IsDepth (edges steps) fun i => ((steps[i]?).map (depth steps)).getD 0 := by
  refine ⟨fun i j ha => ?_, fun j hne => ?_⟩
  · obtain ⟨s, t, hi, hj, href⟩ := (leads_iff hids).1 (arc_edges_iff.1 ha)
    rw [hi, hj]
    exact depth_lt hids hc (List.mem_of_getElem? hi) (List.mem_of_getElem? hj) href
  · cases hj : steps[j]? with
    | none =>
      rw [hj] at hne
      exact absurd rfl hne
    | some t =>
      rw [hj] at hne
      obtain ⟨s, hs, href, hdepth⟩ := exists_depth_eq hids hc (List.mem_of_getElem? hj) hne
      obtain ⟨i, hi⟩ := List.mem_iff_getElem?.1 hs
      refine ⟨i, arc_edges_iff.2 ((leads_iff hids).2 ⟨s, t, hi, hj, href⟩), ?_⟩
      rw [hi]
      exact hdepth

/-- Without a circle steps stand in order of depth. -/
theorem ordered_ofSteps :
    (ofSteps steps).steps.Pairwise fun s t => depth steps s ≤ depth steps t := by
  have hordered := ordered_placed (isGraph_edges steps) (isDepth_edges hids hc)
  rw [steps_of_cycle_eq_none hc, List.pairwise_filterMap]
  refine hordered.imp fun {i j} hij s hs t ht => ?_
  rw [hs, ht] at hij
  exact hij

end Chains

end StepOrder

/-! ## Forms -/

namespace Form

open StepOrder

/-- Every step comes before the steps it references. -/
def InOrder (f : Form) : Prop := ∀ i j, Leads f.steps i j → i < j

/-- The first step of a form in order is a parent step. -/
theorem InOrder.isParent_zero {f : Form} (h : f.InOrder) (hsteps : f.steps ≠ []) :
    f.isParent 0 := by
  obtain ⟨first, rest, hfirst⟩ := List.exists_cons_of_ne_nil hsteps
  refine isParent_iff.2 ⟨first, by rw [hfirst]; rfl, ?_⟩
  rw [← Bool.not_eq_true, isReferenced_iff]
  rintro ⟨t, ht, htarget⟩
  obtain ⟨field, hf, hid⟩ := mem_targets.1 htarget
  obtain ⟨i, hi⟩ := List.mem_iff_getElem?.1 ht
  have hpos : position? f.steps first.id = some 0 := by
    rw [position?, hfirst, List.findIdx?_cons, if_pos (by simp)]
  exact Nat.not_lt_zero i (h i 0 ⟨t, field, first.id, hi, hf, hid, hpos⟩)

section Compiled

variable {p : Package} (hcycle : (compile p).cycle = none)

theorem depth_compile (p : Package) : depth (compile p).steps = depth p.discoveredSteps :=
  depth_of_perm p.perm_steps_compile

include hcycle

theorem isGreatest_depth_compile {s : Step} (hs : s ∈ (compile p).steps) :
    IsGreatest {n | ChainTo (compile p).steps n s} (depth (compile p).steps s) := by
  rw [cycle_compile] at hcycle
  simp only [chainTo_of_perm p.perm_steps_compile, depth_compile]
  exact isGreatest_depth p.nodup_ids_discoveredSteps hcycle (Package.mem_steps_compile.1 hs)

theorem ordered_compile : (compile p).steps.Pairwise fun s t =>
    depth (compile p).steps s ≤ depth (compile p).steps t := by
  rw [cycle_compile] at hcycle
  rw [depth_compile, steps_compile]
  exact ordered_ofSteps p.nodup_ids_discoveredSteps hcycle

theorem depth_eq_zero_iff_mem_parents {s : Step} (hs : s ∈ (compile p).steps) :
    depth (compile p).steps s = 0 ↔ s ∈ (compile p).parents := by
  rw [cycle_compile] at hcycle
  rw [depth_compile, depth_eq_zero_iff p.nodup_ids_discoveredSteps hcycle
      (Package.mem_steps_compile.1 hs), ← isReferenced_compile, parents, parentSteps,
    List.mem_filter, Bool.not_eq_true', and_iff_right hs]

/-- The parent steps keep the order in which they are discovered. -/
theorem parents_compile : (compile p).parents = parentSteps p.discoveredSteps := by
  rw [cycle_compile] at hcycle
  rw [parents, steps_compile]
  exact parentSteps_ofSteps p.nodup_ids_discoveredSteps hcycle

theorem parentIndices_compile :
    (compile p).parentIndices = List.range (compile p).parents.length := by
  have hle : (compile p).parents.length ≤ (compile p).steps.length := List.length_filter_le ..
  obtain ⟨m, hm⟩ := Nat.exists_eq_add_of_le hle
  have hiff (i : Nat) : (compile p).isParent i ↔ i < (compile p).parents.length := by
    rw [parents_compile hcycle]
    exact isParent_compile_iff hcycle
  rw [parentIndices, hm, List.range_add, List.filter_append,
    List.filter_eq_self.2 fun i hi => (hiff i).2 (List.mem_range.1 hi),
    List.filter_eq_nil_iff.2 fun i hi => ?_, List.append_nil]
  obtain ⟨j, -, rfl⟩ := List.mem_map.1 hi
  rw [hiff]
  omega

theorem inOrder_compile : (compile p).InOrder := by
  intro i j hij
  obtain ⟨s, t, hi, hj, href⟩ := (leads_iff (nodup_ids_compile p)).1 hij
  have hs := Package.mem_steps_compile.1 (List.mem_of_getElem? hi)
  have ht := Package.mem_steps_compile.1 (List.mem_of_getElem? hj)
  have hlt : depth (compile p).steps s < depth (compile p).steps t := by
    rw [cycle_compile] at hcycle
    rw [depth_compile]
    exact depth_lt p.nodup_ids_discoveredSteps hcycle hs ht href
  obtain ⟨hi', rfl⟩ := List.getElem?_eq_some_iff.1 hi
  obtain ⟨hj', rfl⟩ := List.getElem?_eq_some_iff.1 hj
  rcases Nat.lt_trichotomy i j with h | rfl | h
  · exact h
  · exact absurd hlt (Nat.lt_irrefl _)
  · have := List.pairwise_iff_getElem.1 (ordered_compile hcycle) j i hj' hi' h
    omega

/-- A step that is not a parent step is referenced from a step before it. -/
theorem exists_referencingIndex?_lt {i : Nat} {s : Step} (hi : (compile p).steps[i]? = some s)
    (hnot : (compile p).isParent i = false) :
    ∃ j < i, (compile p).referencingIndex? s.id = some j := by
  have href : isReferenced (compile p).steps s.id = true := by
    rw [isParent, hi] at hnot
    simpa using hnot
  obtain ⟨t, ht, htarget⟩ := List.any_eq_true.1 href
  have hsome : ((compile p).referencingIndex? s.id).isSome :=
    List.findIdx?_isSome.trans (List.any_eq_true.2 ⟨t, ht, htarget⟩)
  obtain ⟨j, hj⟩ := Option.isSome_iff_exists.1 hsome
  obtain ⟨hlt, hat, -⟩ := List.findIdx?_eq_some_iff_getElem.1 hj
  have hleads : Leads (compile p).steps j i :=
    (leads_iff (nodup_ids_compile p)).2 ⟨_, s, List.getElem?_eq_getElem hlt, hi, hat⟩
  exact ⟨j, inOrder_compile hcycle j i hleads, hj⟩

/-- Without a circle of references the steps of a form stand in order of depth, the length of the
longest chain of references that leads to them. The parent steps are those of depth zero, and come
first, as they were discovered; every other step is referenced from a step before it. -/
theorem levels_compile :
    (∀ s ∈ (compile p).steps,
      IsGreatest {n | ChainTo (compile p).steps n s} (depth (compile p).steps s)) ∧
    ((compile p).steps.Pairwise fun s t =>
      depth (compile p).steps s ≤ depth (compile p).steps t) ∧
    (∀ s ∈ (compile p).steps, depth (compile p).steps s = 0 ↔ s ∈ (compile p).parents) ∧
    (compile p).parents = parentSteps p.discoveredSteps ∧
    (∃ k, (compile p).parentIndices = List.range k ∧ ((compile p).steps ≠ [] → 1 ≤ k) ∧
      ∀ i s, (compile p).steps[i]? = some s → k ≤ i →
        ∃ j < i, (compile p).referencingIndex? s.id = some j) := by
  refine ⟨fun s hs => isGreatest_depth_compile hcycle hs, ordered_compile hcycle, fun s hs =>
    depth_eq_zero_iff_mem_parents hcycle hs, parents_compile hcycle, _, parentIndices_compile hcycle,
    fun hsteps => ?_, fun i s hi hle => ?_⟩
  · rw [parents_compile hcycle]
    exact List.length_pos_iff.2 (parentSteps_ne_nil hsteps hcycle)
  · refine exists_referencingIndex?_lt hcycle hi ?_
    rw [← Bool.not_eq_true, isParent_compile_iff hcycle, ← parents_compile hcycle]
    omega

end Compiled

/-- A package whose letters are presented after its works, but stand above their persons. -/
def archivePackage : Package where
  bundle := {
    main := { captureBase := {
      digest := "work"
      attributes := [("author", .text "refs:person"), ("publisher", .text "refs:firm")] } }
    dependencies := [
      { captureBase := {
        digest := "person", attributes := [("employer", .text "refs:firm")] } },
      { captureBase := { digest := "firm", attributes := [("name", .text "Text")] } },
      { captureBase := {
        digest := "letter", attributes := [("sender", .text "refs:person")] } }] }
  presentations := [
    { captureBase := "work"
      interactions := [(SortedMap.empty.insert "author" { kind := some (.name "reference") }).insert
        "publisher" { kind := some (.name "reference") }] },
    { captureBase := "letter"
      interactions := [SortedMap.empty.insert "sender" { kind := some (.name "reference") }] },
    { captureBase := "person"
      interactions := [SortedMap.empty.insert "employer" { kind := some (.name "reference") }] }]

theorem cycle_archivePackage : (compile archivePackage).cycle = none := by cbv

theorem ids_archivePackage :
    archivePackage.discoveredSteps.map (·.id) = ["work", "person", "firm", "letter"] ∧
      (compile archivePackage).steps.map (·.id) = ["work", "letter", "person", "firm"] ∧
      (compile archivePackage).parentIndices = [0, 1] := by cbv

/-- The letter is discovered last and stands second. -/
theorem levels_compile_archive : (compile archivePackage).cycle = none ∧
    archivePackage.discoveredSteps.map (·.id) = ["work", "person", "firm", "letter"] ∧
    (compile archivePackage).steps.map (·.id) = ["work", "letter", "person", "firm"] ∧
    ((compile archivePackage).steps.Pairwise fun s t =>
      depth (compile archivePackage).steps s ≤ depth (compile archivePackage).steps t) ∧
    (compile archivePackage).parents = parentSteps archivePackage.discoveredSteps ∧
    ∃ k, [0, 1] = List.range k ∧ ((compile archivePackage).steps ≠ [] → 1 ≤ k) := by
  obtain ⟨hdiscovered, hids, hindices⟩ := ids_archivePackage
  obtain ⟨-, hordered, -, hparents, k, hk, hpos, -⟩ := levels_compile cycle_archivePackage
  exact ⟨cycle_archivePackage, hdiscovered, hids, hordered, hparents, k, hindices ▸ hk, hpos⟩

end Form
end Questionnaire
