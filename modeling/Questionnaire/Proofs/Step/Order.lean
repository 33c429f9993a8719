import Mathlib.Data.Fintype.EquivFin
import Mathlib.Data.List.Perm.Subperm
import Mathlib.Logic.Relation
import Questionnaire.Step.Order

/-
  The order of steps.

  Steps are placed by counting down, for every position, how many unplaced positions lead to it.
  `Consistent` says what holds between two countings: the counts are exact, the positions without
  a count are those placed or ready, and all that leads to a placed position stands before it.
  `consistent_release` and `consistent_placeNext` keep it, `placeUpTo?_eq` carries it through a run.

  * `place?_eq`: no count ever falls below zero.
  * `ready_place`: within as many rounds as there are positions the queue runs dry.
  * `mem_placed_iff`: the positions placed are those that no circle of references leads to, so
    all are exactly when no chain of references comes back to its start (`length_placed_iff`).
  * `cycle_eq_none_iff`, `steps_of_cycle_eq_none`: what this means for the steps.
-/

namespace Questionnaire.StepOrder

open Relation

/-! ## References between positions -/

/-- The step at position `i` holds a reference field whose target first occurs at `j`. -/
def Leads (steps : List Step) (i j : Nat) : Prop :=
  ∃ s f id, steps[i]? = some s ∧ f ∈ s.fields ∧ f.referenceTarget? = some id ∧
    position? steps id = some j

/-- `j` is among the positions listed for `i`. -/
def Arc (edges : List (List Nat)) (i j : Nat) : Prop := j ∈ edges.getD i []

instance (edges : List (List Nat)) (i j : Nat) : Decidable (Arc edges i j) :=
  inferInstanceAs (Decidable (_ ∈ _))

/-- Every position lists positions of the graph, each once. -/
structure IsGraph (edges : List (List Nat)) : Prop where
  nodup : ∀ i, (edges.getD i []).Nodup
  bound : ∀ i j, Arc edges i j → j < edges.length

theorem Arc.lt {edges : List (List Nat)} {i j : Nat} (h : Arc edges i j) : i < edges.length := by
  rcases Nat.lt_or_ge i edges.length with hi | hi
  · exact hi
  · rw [Arc, List.getD_eq_getElem?_getD, List.getElem?_eq_none hi] at h
    exact absurd h List.not_mem_nil

/-- Induction as repetitions are erased: the first member is taken out of the tail before that is
rid of repetitions in turn. -/
theorem eraseDups_induction {α : Type} [DecidableEq α] {motive : List α → Prop} (nil : motive [])
    (cons : ∀ x xs, motive (xs.filter fun y => !y == x) → motive (x :: xs)) (xs : List α) :
    motive xs := by
  induction h : xs.length using Nat.strong_induction_on generalizing xs with
  | _ n ih =>
    cases xs with
    | nil => exact nil
    | cons x xs =>
      have hle := List.length_filter_le (fun y => !y == x) xs
      rw [List.length_cons] at h
      exact cons x xs (ih _ (by omega) _ rfl)

theorem nodup_eraseDups {α : Type} [DecidableEq α] (xs : List α) : xs.eraseDups.Nodup := by
  induction xs using eraseDups_induction with
  | nil => simp
  | cons x xs ih =>
    rw [List.eraseDups_cons, List.nodup_cons]
    exact ⟨by simp, ih⟩

theorem position?_lt {steps : List Step} {id : String} {j : Nat}
    (h : position? steps id = some j) : j < steps.length :=
  (List.findIdx?_eq_some_iff_getElem.1 h).1

theorem mem_targets {s : Step} {id : String} :
    id ∈ s.targets ↔ ∃ f ∈ s.fields, f.referenceTarget? = some id := by
  simp only [Step.targets, Step.references, List.mem_map, List.mem_filterMap,
    Option.map_eq_some_iff]
  constructor
  · rintro ⟨_, ⟨f, hf, _, ht, rfl⟩, rfl⟩
    exact ⟨f, hf, ht⟩
  · rintro ⟨f, hf, ht⟩
    exact ⟨(f, id), ⟨f, hf, id, ht, rfl⟩, rfl⟩

theorem mem_successors {steps : List Step} {s : Step} {j : Nat} :
    j ∈ successors steps s ↔
      ∃ f id, f ∈ s.fields ∧ f.referenceTarget? = some id ∧ position? steps id = some j := by
  simp only [successors, List.mem_eraseDups, List.mem_filterMap, mem_targets]
  constructor
  · rintro ⟨id, ⟨f, hf, ht⟩, hj⟩
    exact ⟨f, id, hf, ht, hj⟩
  · rintro ⟨f, id, hf, ht, hj⟩
    exact ⟨id, ⟨f, hf, ht⟩, hj⟩

theorem length_edges (steps : List Step) : (edges steps).length = steps.length := by
  simp [edges]

theorem getD_edges (steps : List Step) (i : Nat) :
    (edges steps).getD i [] = (steps[i]?.map (successors steps)).getD [] := by
  rw [List.getD_eq_getElem?_getD, edges, List.getElem?_map]

theorem arc_edges_iff {steps : List Step} {i j : Nat} :
    Arc (edges steps) i j ↔ Leads steps i j := by
  rw [Arc, getD_edges, Leads]
  cases h : steps[i]? with
  | none => simp
  | some s =>
    rw [Option.map_some, Option.getD_some, mem_successors]
    constructor
    · rintro ⟨f, id, hf, ht, hj⟩
      exact ⟨s, f, id, rfl, hf, ht, hj⟩
    · rintro ⟨_, f, id, hs, hf, ht, hj⟩
      cases hs
      exact ⟨f, id, hf, ht, hj⟩

theorem isGraph_edges (steps : List Step) : IsGraph (edges steps) where
  nodup i := by
    rw [getD_edges]
    cases steps[i]? with
    | none => exact List.nodup_nil
    | some s => exact nodup_eraseDups _
  bound i j h := by
    obtain ⟨_, _, _, _, _, _, hj⟩ := arc_edges_iff.1 h
    rw [length_edges]
    exact position?_lt hj

/-! ## Unplaced positions that lead to a position -/

/-- The positions outside `placed` that lead to `j`. -/
def waitingFor (edges : List (List Nat)) (placed : List Nat) (j : Nat) : Finset Nat :=
  (Finset.range edges.length).filter fun i => i ∉ placed ∧ Arc edges i j

theorem mem_waitingFor {edges : List (List Nat)} {placed : List Nat} {i j : Nat} :
    i ∈ waitingFor edges placed j ↔ i ∉ placed ∧ Arc edges i j := by
  rw [waitingFor, Finset.mem_filter, Finset.mem_range]
  exact ⟨And.right, fun h => ⟨h.2.lt, h⟩⟩

theorem waitingFor_eq_empty_iff {edges : List (List Nat)} {placed : List Nat} {j : Nat} :
    (waitingFor edges placed j).card = 0 ↔ ∀ i, Arc edges i j → i ∈ placed := by
  rw [Finset.card_eq_zero, Finset.eq_empty_iff_forall_notMem]
  constructor
  · intro h i hi
    by_contra hn
    exact h i (mem_waitingFor.2 ⟨hn, hi⟩)
  · intro h i hi
    obtain ⟨hn, ha⟩ := mem_waitingFor.1 hi
    exact hn (h i ha)

/-- Placing a position takes it out of all that wait for its successors. -/
theorem card_waitingFor_snoc {edges : List (List Nat)} {placed : List Nat} {i : Nat}
    (hi : i ∉ placed) (j : Nat) :
    (waitingFor edges placed j).card =
      (waitingFor edges (placed ++ [i]) j).card + if j ∈ edges.getD i [] then 1 else 0 := by
  have herase : waitingFor edges (placed ++ [i]) j = (waitingFor edges placed j).erase i := by
    ext k
    rw [Finset.mem_erase, mem_waitingFor, mem_waitingFor, List.mem_append, List.mem_singleton,
      not_or]
    constructor
    · rintro ⟨⟨hp, hne⟩, ha⟩; exact ⟨hne, hp, ha⟩
    · rintro ⟨hne, hp, ha⟩; exact ⟨⟨hp, hne⟩, ha⟩
  rw [herase]
  split
  · next ha => rw [Finset.card_erase_add_one (mem_waitingFor.2 ⟨hi, ha⟩)]
  · next ha => rw [Finset.erase_eq_of_notMem fun h => ha (mem_waitingFor.1 h).2, Nat.add_zero]

theorem inDegree_eq (edges : List (List Nat)) (j : Nat) :
    inDegree edges j = (waitingFor edges [] j).card := by
  have hmap : edges = (List.range edges.length).map fun i => edges.getD i [] := by
    apply List.ext_getElem
    · simp
    · intro i h _
      rw [List.getElem_map, List.getElem_range, List.getD_eq_getElem?_getD,
        List.getElem?_eq_getElem h, Option.getD_some]
  rw [inDegree, hmap, List.countP_map, List.countP_eq_length_filter, ← hmap, waitingFor,
    Finset.card, Finset.filter_val, Finset.range_val, Multiset.range, Multiset.filter_coe,
    Multiset.coe_card]
  congr 1
  refine List.filter_congr fun i _ => ?_
  simp [Arc]

/-! ## Counting down -/

/-- What holds while the positions in `pending` are still to be counted down. -/
structure Consistent (edges : List (List Nat)) (p : Progress) (pending : List Nat) : Prop where
  size : p.degrees.length = edges.length
  distinct : (p.placed ++ p.ready).Nodup
  /-- The counts are exact. -/
  degree : ∀ j < edges.length, p.degrees.getD j 0 =
    (waitingFor edges p.placed j).card + if j ∈ pending then 1 else 0
  /-- The positions without a count are those placed or ready. -/
  free : ∀ j, j ∈ p.placed ++ p.ready ↔ j < edges.length ∧ p.degrees.getD j 0 = 0
  /-- All that leads to a placed position stands before it. -/
  closed : ∀ before j after, p.placed = before ++ j :: after → ∀ i, Arc edges i j → i ∈ before

theorem getD_set (xs : List Nat) (i j v : Nat) (h : i < xs.length) :
    (xs.set i v).getD j 0 = if j = i then v else xs.getD j 0 := by
  rw [List.getD_eq_getElem?_getD, List.getD_eq_getElem?_getD, List.getElem?_set]
  by_cases hji : j = i
  · subst hji; simp [h]
  · simp [hji, Ne.symm hji]

theorem consistent_start {edges : List (List Nat)} : Consistent edges (start edges) [] where
  size := by simp [start]
  distinct := List.nodup_range.filter _
  degree j hj := by
    simp [start, hj, inDegree_eq]
  free j := by
    simp only [start, List.nil_append, List.mem_filter, List.mem_range, decide_eq_true_eq]
  closed before j after h := by simp [start] at h

section Release

variable {edges : List (List Nat)} {p : Progress} {j : Nat} {pending : List Nat}

theorem degree_pos (h : Consistent edges p (j :: pending)) (hj : j < edges.length) :
    0 < p.degrees.getD j 0 := by
  rw [h.degree j hj, if_pos List.mem_cons_self]
  exact Nat.succ_pos _

theorem consistent_release (h : Consistent edges p (j :: pending)) (hj : j < edges.length)
    (hnd : j ∉ pending) : Consistent edges (release p j) pending := by
  have hpos := degree_pos h hj
  have hsize : j < p.degrees.length := h.size ▸ hj
  have hfresh : j ∉ p.placed ++ p.ready := fun hm => by
    have := ((h.free j).1 hm).2
    omega
  have hget (k : Nat) : (release p j).degrees.getD k 0 =
      if k = j then p.degrees.getD j 0 - 1 else p.degrees.getD k 0 :=
    getD_set p.degrees j k _ hsize
  have hmem (k : Nat) : k ∈ p.placed ++ (release p j).ready ↔
      k ∈ p.placed ++ p.ready ∨ k = j ∧ p.degrees.getD j 0 - 1 = 0 := by
    unfold release
    dsimp only
    split
    · next h0 => simp only [h0, List.mem_append, List.mem_singleton, and_true, or_assoc]
    · next h0 => simp only [h0, and_false, or_false]
  refine ⟨?_, ?_, ?_, ?_, h.closed⟩
  · show (p.degrees.set j _).length = _
    rw [List.length_set, h.size]
  · show (p.placed ++ (release p j).ready).Nodup
    unfold release
    dsimp only
    split
    · rw [← List.append_assoc, List.nodup_append]
      refine ⟨h.distinct, List.nodup_singleton j, fun a ha b hb => ?_⟩
      rw [List.mem_singleton.1 hb]
      exact fun hab => hfresh (hab ▸ ha)
    · exact h.distinct
  · intro k hk
    show (release p j).degrees.getD k 0 = (waitingFor edges p.placed k).card + _
    rw [hget]
    by_cases hkj : k = j
    · subst hkj
      rw [if_pos rfl, h.degree k hk, if_pos List.mem_cons_self, if_neg hnd]
      rfl
    · rw [if_neg hkj, h.degree k hk]
      simp [hkj]
  · intro k
    show k ∈ p.placed ++ (release p j).ready ↔ _
    rw [hmem, hget, h.free k]
    by_cases hkj : k = j
    · subst hkj
      rw [if_pos rfl]
      constructor
      · rintro (⟨_, h0⟩ | ⟨_, h0⟩)
        · omega
        · exact ⟨hj, h0⟩
      · exact fun h0 => .inr ⟨rfl, h0.2⟩
    · simp [hkj]

end Release

/-! ## Placing the next position -/

/-- Takes a position from the queue and places it, its successors not yet counted down. -/
def placeNext (p : Progress) (i : Nat) (ready : List Nat) : Progress :=
  { p with ready, placed := p.placed ++ [i] }

/-- An entry of a list with one more at its end is that last one, or stood in the list before. -/
theorem eq_append_cons_of_snoc {α : Type} {xs before after : List α} {x y : α}
    (h : xs ++ [x] = before ++ y :: after) :
    (y = x ∧ before = xs ∧ after = []) ∨
      ∃ rest, after = rest ++ [x] ∧ xs = before ++ y :: rest := by
  rcases List.eq_nil_or_concat after with rfl | ⟨rest, z, rfl⟩
  · obtain ⟨hb, hy⟩ := List.append_inj' h rfl
    exact .inl ⟨(List.singleton_inj.1 hy).symm, hb.symm, rfl⟩
  · rw [List.concat_eq_append, ← List.cons_append, ← List.append_assoc] at h
    obtain ⟨hxs, hz⟩ := List.append_inj' h rfl
    exact .inr ⟨rest, by rw [List.concat_eq_append, hz], hxs⟩

theorem closed_snoc {edges : List (List Nat)} {placed : List Nat} {i : Nat}
    (hc : ∀ before j after, placed = before ++ j :: after → ∀ k, Arc edges k j → k ∈ before)
    (hi : ∀ k, Arc edges k i → k ∈ placed) (before : List Nat) (j : Nat) (after : List Nat)
    (h : placed ++ [i] = before ++ j :: after) (k : Nat) (hk : Arc edges k j) : k ∈ before := by
  rcases eq_append_cons_of_snoc h with ⟨rfl, rfl, -⟩ | ⟨rest, -, hrest⟩
  · exact hi k hk
  · exact hc before j rest hrest k hk

theorem consistent_placeNext {edges : List (List Nat)} {p : Progress} {i : Nat} {ready : List Nat}
    (h : Consistent edges p []) (hr : p.ready = i :: ready) :
    Consistent edges (placeNext p i ready) (edges.getD i []) := by
  have hlist : p.placed ++ [i] ++ ready = p.placed ++ p.ready := by rw [hr]; simp
  have hi := (h.free i).1 (by rw [hr]; simp)
  have hnot : i ∉ p.placed := by
    have := h.distinct
    rw [hr, List.nodup_append] at this
    exact fun hm => this.2.2 i hm i List.mem_cons_self rfl
  refine ⟨h.size, ?_, ?_, ?_, ?_⟩
  · show (p.placed ++ [i] ++ ready).Nodup
    rw [hlist]
    exact h.distinct
  · intro j hj
    show p.degrees.getD j 0 = (waitingFor edges (p.placed ++ [i]) j).card + _
    rw [h.degree j hj, card_waitingFor_snoc hnot j]
    simp
  · intro j
    show j ∈ p.placed ++ [i] ++ ready ↔ _
    rw [hlist]
    exact h.free j
  · refine closed_snoc h.closed (waitingFor_eq_empty_iff.1 ?_)
    have := h.degree i hi.1
    rw [hi.2, if_neg List.not_mem_nil] at this
    exact this.symm

/-! ## Counting that may fail -/

/-- Counts a position down, and fails if it has no count left. -/
def release? (p : Progress) (j : Nat) : Option Progress :=
  if 0 < p.degrees.getD j 0 then some (release p j) else none

/-- Places the next ready position, and fails if a count would fall below zero. -/
def advance? (edges : List (List Nat)) (p : Progress) : Option Progress :=
  match p.ready with
  | [] => some p
  | i :: ready => (edges.getD i []).foldlM release? (placeNext p i ready)

/-- Places up to `n` positions, and fails if a count would fall below zero. -/
def placeUpTo? (edges : List (List Nat)) : Nat → Progress → Option Progress
  | 0, p => some p
  | n + 1, p => (advance? edges p).bind (placeUpTo? edges n)

/-- Places all positions that can be placed, and fails if a count would fall below zero. -/
def place? (edges : List (List Nat)) : Option Progress :=
  placeUpTo? edges edges.length (start edges)

theorem foldlM_release? {edges : List (List Nat)} {p : Progress} {pending : List Nat}
    (h : Consistent edges p pending) (hnd : pending.Nodup)
    (hb : ∀ j ∈ pending, j < edges.length) :
    pending.foldlM release? p = some (pending.foldl release p) ∧
      Consistent edges (pending.foldl release p) [] := by
  induction pending generalizing p with
  | nil => exact ⟨rfl, h⟩
  | cons j pending ih =>
    have hj := hb j List.mem_cons_self
    obtain ⟨hnot, hnd⟩ := List.nodup_cons.1 hnd
    have hstep : release? p j = some (release p j) := if_pos (degree_pos h hj)
    rw [List.foldlM_cons, List.foldl_cons, hstep]
    exact ih (consistent_release h hj hnot) hnd fun k hk => hb k (List.mem_cons_of_mem _ hk)

theorem advance?_eq {edges : List (List Nat)} (hg : IsGraph edges) {p : Progress}
    (h : Consistent edges p []) :
    advance? edges p = some (advance edges p) ∧ Consistent edges (advance edges p) [] := by
  unfold advance? advance
  cases hr : p.ready with
  | nil => exact ⟨rfl, h⟩
  | cons i ready =>
    exact foldlM_release? (consistent_placeNext h hr) (hg.nodup i) fun j hj => hg.bound i j hj

theorem placeUpTo?_eq {edges : List (List Nat)} (hg : IsGraph edges) (n : Nat) {p : Progress}
    (h : Consistent edges p []) :
    placeUpTo? edges n p = some (placeUpTo edges n p) ∧
      Consistent edges (placeUpTo edges n p) [] := by
  induction n generalizing p with
  | zero => exact ⟨rfl, h⟩
  | succ n ih =>
    obtain ⟨hstep, hc⟩ := advance?_eq hg h
    rw [placeUpTo?, hstep]
    exact ih hc

theorem place?_eq {edges : List (List Nat)} (hg : IsGraph edges) :
    place? edges = some (place edges) :=
  (placeUpTo?_eq hg _ consistent_start).1

theorem consistent_place {edges : List (List Nat)} (hg : IsGraph edges) :
    Consistent edges (place edges) [] :=
  (placeUpTo?_eq hg _ consistent_start).2

/-! ## The end of a run -/

/-- A round places a position, unless the queue is dry. -/
theorem length_placed_advance {edges : List (List Nat)} {p : Progress} (h : p.ready ≠ []) :
    (advance edges p).placed.length = p.placed.length + 1 := by
  have hfold (js : List Nat) (q : Progress) : (js.foldl release q).placed = q.placed := by
    induction js generalizing q with
    | nil => rfl
    | cons j js ih => rw [List.foldl_cons, ih]; rfl
  unfold advance
  cases hr : p.ready with
  | nil => exact absurd hr h
  | cons i ready => rw [hfold]; simp

theorem placeUpTo_of_ready_eq_nil {edges : List (List Nat)} (n : Nat) {p : Progress}
    (h : p.ready = []) : placeUpTo edges n p = p := by
  induction n with
  | zero => rfl
  | succ n ih =>
    have hstay : advance edges p = p := by unfold advance; rw [h]
    rw [placeUpTo, hstay, ih]

theorem ready_or_length_placeUpTo (edges : List (List Nat)) (n : Nat) (p : Progress) :
    (placeUpTo edges n p).ready = [] ∨
      (placeUpTo edges n p).placed.length = p.placed.length + n := by
  induction n generalizing p with
  | zero => exact .inr rfl
  | succ n ih =>
    rcases Decidable.em (p.ready = []) with hr | hr
    · rw [placeUpTo_of_ready_eq_nil _ hr]
      exact .inl hr
    · rw [placeUpTo]
      refine (ih (advance edges p)).imp_right fun hl => ?_
      rw [hl, length_placed_advance hr]
      omega

section Run

variable {edges : List (List Nat)} {p : Progress}

/-- Placed and ready positions are positions of the graph, each once. -/
theorem subperm_range (h : Consistent edges p []) :
    (p.placed ++ p.ready).Subperm (List.range edges.length) :=
  h.distinct.subperm fun j hj => List.mem_range.2 ((h.free j).1 hj).1

theorem ready_place (hg : IsGraph edges) : (place edges).ready = [] := by
  have hle := (subperm_range (consistent_place hg)).length_le
  rw [List.length_append, List.length_range] at hle
  rcases ready_or_length_placeUpTo edges edges.length (start edges) with h | h
  · exact h
  · have hlen : (place edges).placed.length = edges.length := by
      rw [place, h]
      simp [start]
    exact List.length_eq_zero_iff.1 (by omega)

theorem perm_range_placed (hg : IsGraph edges)
    (hlen : (place edges).placed.length = edges.length) :
    (place edges).placed.Perm (List.range edges.length) := by
  have hsub := subperm_range (consistent_place hg)
  rw [ready_place hg, List.append_nil] at hsub
  exact hsub.perm_of_length_le (by rw [List.length_range, hlen])

/-- What leads to a placed position stands before it. -/
theorem idxOf_lt_of_arc (h : Consistent edges p []) {i j : Nat} (ha : Arc edges i j)
    (hj : j ∈ p.placed) : p.placed.idxOf i < p.placed.idxOf j := by
  obtain ⟨before, after, hsplit⟩ := List.append_of_mem hj
  have hi := h.closed before j after hsplit i ha
  have hj : j ∉ before := fun hm => by
    have hd := (List.nodup_append.1 h.distinct).1
    rw [hsplit, List.nodup_append] at hd
    exact hd.2.2 j hm j List.mem_cons_self rfl
  rw [hsplit, List.idxOf_append_of_mem hi, List.idxOf_append_of_notMem hj, List.idxOf_cons_self]
  exact Nat.lt_of_lt_of_le (List.idxOf_lt_length_of_mem hi) (Nat.le_add_right _ _)

/-- An unplaced position is led to by an unplaced one once the queue is dry. -/
theorem exists_arc_of_not_placed (h : Consistent edges p []) (hr : p.ready = []) {j : Nat}
    (hj : j < edges.length) (hn : j ∉ p.placed) : ∃ i, i ∉ p.placed ∧ Arc edges i j := by
  by_contra hnone
  have hzero : (waitingFor edges p.placed j).card = 0 := by
    refine waitingFor_eq_empty_iff.2 fun i ha => ?_
    by_contra hi
    exact hnone ⟨i, hi, ha⟩
  have hfree := (h.free j).2 ⟨hj, by rw [h.degree j hj, hzero]; rfl⟩
  rw [hr, List.append_nil] at hfree
  exact hn hfree

end Run

/-! ## Circles of references -/

/-- A position lies on a circle of references or can be reached from one. -/
def BelowCircle (edges : List (List Nat)) (j : Nat) : Prop :=
  ∃ k, TransGen (Arc edges) k k ∧ ReflTransGen (Arc edges) k j

/-- Away from circles no chain of references can be followed back forever. -/
theorem wellFounded_off_circles (edges : List (List Nat)) :
    WellFounded fun i j : Fin edges.length =>
      TransGen (Arc edges) i j ∧ ¬ BelowCircle edges j := by
  have : IsTrans (Fin edges.length) fun i j => TransGen (Arc edges) i j ∧ ¬ BelowCircle edges j :=
    ⟨fun _ _ _ hij hjk => ⟨hij.1.trans hjk.1, hjk.2⟩⟩
  have : Std.Irrefl fun i j : Fin edges.length =>
      TransGen (Arc edges) i j ∧ ¬ BelowCircle edges j :=
    ⟨fun i hi => hi.2 ⟨i, hi.1, .refl⟩⟩
  exact Finite.wellFounded_of_trans_of_irrefl _

/-- Away from circles every position is placed: the first unplaced one in a chain would have to
be led to by an unplaced one before it. -/
theorem mem_placed_of_not_belowCircle {edges : List (List Nat)} (hg : IsGraph edges)
    (j : Fin edges.length) (h : ¬ BelowCircle edges j) : j.val ∈ (place edges).placed := by
  induction j using (wellFounded_off_circles edges).induction with
  | _ j ih =>
    by_contra hn
    obtain ⟨i, hi, ha⟩ :=
      exists_arc_of_not_placed (consistent_place hg) (ready_place hg) j.isLt hn
    exact hi (ih ⟨i, ha.lt⟩ ⟨.single ha, h⟩ fun ⟨k, hk, hki⟩ => h ⟨k, hk, hki.tail ha⟩)

section Placed

variable {edges : List (List Nat)} {p : Progress} {i j : Nat}

theorem mem_placed_of_arc (h : Consistent edges p []) (ha : Arc edges i j)
    (hj : j ∈ p.placed) : i ∈ p.placed := by
  obtain ⟨before, after, hsplit⟩ := List.append_of_mem hj
  rw [hsplit]
  exact List.mem_append_left _ (h.closed before j after hsplit i ha)

theorem idxOf_lt_of_transGen (h : Consistent edges p []) (hij : TransGen (Arc edges) i j)
    (hj : j ∈ p.placed) : p.placed.idxOf i < p.placed.idxOf j := by
  induction hij with
  | single ha => exact idxOf_lt_of_arc h ha hj
  | tail _ ha ih =>
    exact Nat.lt_trans (ih (mem_placed_of_arc h ha hj)) (idxOf_lt_of_arc h ha hj)

/-- What leads to a placed position is placed, and comes before it; on a circle that cannot be. -/
theorem not_belowCircle_of_mem_placed (h : Consistent edges p []) (hj : j ∈ p.placed) :
    ¬ BelowCircle edges j := by
  rintro ⟨k, hk, hkj⟩
  have hplaced : k ∈ p.placed := by
    induction hkj with
    | refl => exact hj
    | tail _ ha ih => exact ih (mem_placed_of_arc h ha hj)
  exact Nat.lt_irrefl _ (idxOf_lt_of_transGen h hk hplaced)

end Placed

/-- The positions that can be placed are those away from circles. -/
theorem mem_placed_iff {edges : List (List Nat)} (hg : IsGraph edges) {j : Nat} :
    j ∈ (place edges).placed ↔ j < edges.length ∧ ¬ BelowCircle edges j := by
  have hc := consistent_place hg
  constructor
  · intro hj
    exact ⟨((hc.free j).1 (List.mem_append_left _ hj)).1, not_belowCircle_of_mem_placed hc hj⟩
  · rintro ⟨hlt, hj⟩
    exact mem_placed_of_not_belowCircle hg ⟨j, hlt⟩ hj

theorem length_placed_iff {edges : List (List Nat)} (hg : IsGraph edges) :
    (place edges).placed.length = edges.length ↔ ∀ i, ¬ TransGen (Arc edges) i i := by
  constructor
  · intro hlen i hi
    obtain ⟨_, ha, -⟩ := TransGen.head'_iff.1 hi
    have hplaced := (perm_range_placed hg hlen).mem_iff.2 (List.mem_range.2 ha.lt)
    exact ((mem_placed_iff hg).1 hplaced).2 ⟨i, hi, .refl⟩
  · intro h
    have hsub := subperm_range (consistent_place hg)
    rw [ready_place hg, List.append_nil] at hsub
    refine Nat.le_antisymm (by simpa using hsub.length_le) ?_
    have hall : (List.range edges.length).Subperm (place edges).placed :=
      List.nodup_range.subperm fun j hj =>
        (mem_placed_iff hg).2 ⟨List.mem_range.1 hj, fun ⟨k, hk, _⟩ => h k hk⟩
    simpa using hall.length_le

/-! ## Steps in order -/

theorem cycle_eq_none_iff (steps : List Step) :
    (ofSteps steps).cycle = none ↔ (place (edges steps)).placed.length = steps.length := by
  unfold ofSteps
  dsimp only
  split
  · next h => exact ⟨fun _ => h, fun _ => rfl⟩
  · next h => exact ⟨fun hc => absurd hc (by simp), fun hl => absurd hl h⟩

theorem steps_of_cycle_ne_none {steps : List Step} (h : (ofSteps steps).cycle ≠ none) :
    (ofSteps steps).steps = steps := by
  have hlen := mt (cycle_eq_none_iff steps).2 h
  unfold ofSteps
  dsimp only
  rw [if_neg hlen]

theorem steps_of_cycle_eq_none {steps : List Step} (h : (ofSteps steps).cycle = none) :
    (ofSteps steps).steps = (place (edges steps)).placed.filterMap (steps[·]?) := by
  have hlen := (cycle_eq_none_iff steps).1 h
  unfold ofSteps
  dsimp only
  rw [if_pos hlen]

theorem map_some_filterMap {α β : Type} {f : α → Option β} {xs : List α}
    (h : ∀ x ∈ xs, (f x).isSome) : (xs.filterMap f).map some = xs.map f := by
  induction xs with
  | nil => rfl
  | cons x xs ih =>
    obtain ⟨y, hy⟩ := Option.isSome_iff_exists.1 (h x List.mem_cons_self)
    rw [List.filterMap_cons_some hy, List.map_cons, List.map_cons, hy,
      ih fun z hz => h z (List.mem_cons_of_mem _ hz)]

theorem map_some_filterMap_getElem? {steps : List Step} {order : List Nat}
    (h : ∀ i ∈ order, i < steps.length) :
    (order.filterMap (steps[·]?)).map some = order.map (steps[·]?) :=
  map_some_filterMap fun i hi => by simp [h i hi]

theorem filterMap_range_getElem? (steps : List Step) :
    (List.range steps.length).filterMap (steps[·]?) = steps := by
  refine List.map_injective_iff.2 (Option.some_injective Step) ?_
  rw [map_some_filterMap_getElem? fun i hi => List.mem_range.1 hi]
  apply List.ext_getElem
  · simp
  · intro i h _
    simp

theorem perm_placed {steps : List Step} (h : (ofSteps steps).cycle = none) :
    (place (edges steps)).placed.Perm (List.range steps.length) := by
  have hlen := (cycle_eq_none_iff steps).1 h
  rw [← length_edges steps] at hlen ⊢
  exact perm_range_placed (isGraph_edges steps) hlen

/-- No step is lost, and none is made twice. -/
theorem perm_ofSteps (steps : List Step) : (ofSteps steps).steps.Perm steps := by
  cases h : (ofSteps steps).cycle with
  | none =>
    rw [steps_of_cycle_eq_none h]
    simpa only [filterMap_range_getElem?] using (perm_placed h).filterMap (steps[·]?)
  | some c => rw [steps_of_cycle_ne_none (by simp [h])]

/-- Counting down never falls below zero and ends with a dry queue. There is no circle to report
exactly when no chain of references comes back to its start. Then the steps stand in an order of
their positions in which every step comes before those it leads to; with a circle they stay. -/
theorem ofSteps_correct (steps : List Step) :
    place? (edges steps) = some (place (edges steps)) ∧
      (place (edges steps)).ready = [] ∧
      ((ofSteps steps).cycle = none ↔ ∀ i, ¬ TransGen (Leads steps) i i) ∧
      ((ofSteps steps).cycle = none → ∃ order : List Nat,
        order.Perm (List.range steps.length) ∧ (ofSteps steps).steps.Perm steps ∧
          (ofSteps steps).steps.map some = order.map (steps[·]?) ∧
          ∀ i j, Leads steps i j → order.idxOf i < order.idxOf j) ∧
      ((ofSteps steps).cycle ≠ none → (ofSteps steps).steps = steps) := by
  have hg := isGraph_edges steps
  have harc : Arc (edges steps) = Leads steps := by
    funext i j
    exact propext arc_edges_iff
  refine ⟨place?_eq hg, ready_place hg, ?_, ?_, steps_of_cycle_ne_none⟩
  · rw [cycle_eq_none_iff, ← length_edges steps, length_placed_iff hg, harc]
  · intro hc
    have hperm := perm_placed hc
    refine ⟨(place (edges steps)).placed, hperm, perm_ofSteps steps, ?_, ?_⟩
    · rw [steps_of_cycle_eq_none hc]
      refine map_some_filterMap_getElem? fun i hi => ?_
      exact List.mem_range.1 (hperm.mem_iff.1 hi)
    · intro i j hij
      have ha := arc_edges_iff.2 hij
      exact idxOf_lt_of_arc (consistent_place hg) ha
        (hperm.mem_iff.2 (List.mem_range.2 (length_edges steps ▸ hg.bound i j ha)))

end Questionnaire.StepOrder
