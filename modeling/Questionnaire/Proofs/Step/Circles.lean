import Questionnaire.Proofs.Step.Order

/-
  The steps that cannot be put in order.

  When no position is ready any more, those with a count left are the unplaced ones, and these are
  the positions on circles of references and below them (`mem_unresolved_iff`). A report names them
  in the given order, and never without one (`unresolved_correct`).
-/

namespace Questionnaire.StepOrder

open Relation

/-- The positions that still have a count when no position is ready, in order. -/
def unresolved (edges : List (List Nat)) : List Nat :=
  (List.range edges.length).filter fun i => 0 < (place edges).degrees.getD i 0

theorem lt_of_belowCircle {edges : List (List Nat)} (hg : IsGraph edges) {i : Nat}
    (h : BelowCircle edges i) : i < edges.length := by
  obtain ⟨k, hk, hki⟩ := h
  obtain ⟨_, -, ha⟩ := TransGen.tail'_iff.1 (hk.trans_left hki)
  exact hg.bound _ _ ha

/-- A count is left exactly below circles, since the positions without one are the placed ones. -/
theorem mem_unresolved_iff {edges : List (List Nat)} (hg : IsGraph edges) {i : Nat} :
    i ∈ unresolved edges ↔ BelowCircle edges i := by
  have hplaced : i ∈ (place edges).placed ↔
      i < edges.length ∧ (place edges).degrees.getD i 0 = 0 := by
    have hfree := (consistent_place hg).free i
    rwa [ready_place hg, List.append_nil] at hfree
  rw [unresolved, List.mem_filter, List.mem_range, decide_eq_true_eq, Nat.pos_iff_ne_zero]
  constructor
  · rintro ⟨hi, hcount⟩
    by_contra hnot
    exact hcount (hplaced.1 ((mem_placed_iff hg).2 ⟨hi, hnot⟩)).2
  · intro hbelow
    have hi := lt_of_belowCircle hg hbelow
    exact ⟨hi, fun hzero => ((mem_placed_iff hg).1 (hplaced.2 ⟨hi, hzero⟩)).2 hbelow⟩

theorem unresolved_eq_nil_iff {edges : List (List Nat)} (hg : IsGraph edges) :
    unresolved edges = [] ↔ (place edges).placed.length = edges.length := by
  rw [length_placed_iff hg, List.eq_nil_iff_forall_not_mem]
  simp only [mem_unresolved_iff hg]
  exact ⟨fun h i hi => h i ⟨i, hi, .refl⟩, fun h i ⟨k, hk, _⟩ => h k hk⟩

theorem cycle_eq_some {steps : List Step} {c : CyclicReferences}
    (h : (ofSteps steps).cycle = some c) :
    unresolved (edges steps) ≠ [] ∧
      c.unresolved.map some = (unresolved (edges steps)).map fun i => (steps[i]?).map (·.id) := by
  have hlen := mt (cycle_eq_none_iff steps).2 (h ▸ Option.some_ne_none c)
  rw [Ne, unresolved_eq_nil_iff (isGraph_edges steps), length_edges]
  refine ⟨hlen, ?_⟩
  have hnames : c.unresolved =
      (unresolved (edges steps)).filterMap fun i => (steps[i]?).map (·.id) := by
    rw [unresolved, length_edges]
    unfold ofSteps at h
    dsimp only at h
    rw [if_neg hlen] at h
    cases h
    rfl
  rw [hnames]
  refine map_some_filterMap fun i hi => ?_
  have hlt : i < steps.length := by
    rw [← length_edges]
    exact lt_of_belowCircle (isGraph_edges steps) ((mem_unresolved_iff (isGraph_edges steps)).1 hi)
  simp [hlt]

/-- A report of a circle names, in the given order, the steps that lie on a circle of references or
can be reached from one, and there are some. -/
theorem unresolved_correct {steps : List Step} {c : CyclicReferences}
    (h : (ofSteps steps).cycle = some c) :
    c.unresolved ≠ [] ∧ ∃ positions : List Nat, positions.Pairwise (· < ·) ∧
      (∀ i, i ∈ positions ↔
        ∃ k, TransGen (Leads steps) k k ∧ ReflTransGen (Leads steps) k i) ∧
      c.unresolved.map some = positions.map fun i => (steps[i]?).map (·.id) := by
  have harc : Arc (edges steps) = Leads steps := by
    funext i j
    exact propext arc_edges_iff
  obtain ⟨hsome, hnames⟩ := cycle_eq_some h
  refine ⟨fun hnil => hsome ?_, unresolved (edges steps), List.pairwise_lt_range.filter _,
    fun i => ?_, hnames⟩
  · rw [hnil, List.map_nil] at hnames
    exact List.map_eq_nil_iff.1 hnames.symm
  · rw [mem_unresolved_iff (isGraph_edges steps), BelowCircle, harc]

/-- A list whose drafts lead to works, works and persons to each other, and persons to firms. -/
def circleSteps : List Step :=
  let leading (id : String) (targets : List String) : Step :=
    { id
      pages := [{ sections := [{
        fields := targets.map fun t => { id := t, kind := .reference, target := some t } }] }] }
  [leading "firm" [], leading "work" ["person"], leading "draft" ["work"],
    leading "person" ["firm", "work"], leading "letter" []]

/-- The draft above the circle is not named, the firm below it is. -/
theorem unresolved_correct_firm :
    (ofSteps circleSteps).cycle = some ⟨["firm", "work", "person"]⟩ ∧
      ∃ positions : List Nat, positions.Pairwise (· < ·) ∧
        (∀ i, i ∈ positions ↔
          ∃ k, TransGen (Leads circleSteps) k k ∧ ReflTransGen (Leads circleSteps) k i) ∧
        ["firm", "work", "person"].map some = positions.map fun i => (circleSteps[i]?).map (·.id) := by
  have hcycle : (ofSteps circleSteps).cycle = some ⟨["firm", "work", "person"]⟩ := by decide
  exact ⟨hcycle, (unresolved_correct hcycle).2⟩

end Questionnaire.StepOrder
