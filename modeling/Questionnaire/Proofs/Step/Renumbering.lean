import Questionnaire.Proofs.Step.Parents

/-
  Ordering looks at the given order of steps only where it starts.

  A round places the next ready position and makes ready those of its successors that wait for
  nothing else (`ready_advance`); which these are depends on what leads where and on what is placed,
  but not on how positions are numbered. So if the positions of a graph are renumbered and the two
  first queues agree, the two queues agree after every round (`agree_advance`, `agree_placeUpTo`)
  and what is placed is the same (`placed_renumbered`).

  Lists of the same steps are such renumberings of each other. The first queue holds the parent
  steps as they were given, so lists that give the parent steps in the same order are put in the
  same order (`ofSteps_of_perm`). An order keeps the parent steps as they were given, which makes
  ordering idempotent (`ofSteps_ofSteps`).
-/

namespace Questionnaire.StepOrder

/-! ## What a round makes ready -/

/-- The successors of a position that wait for nothing once it is placed behind `placed`. -/
def released (edges : List (List Nat)) (placed : List Nat) (i : Nat) : List Nat :=
  (edges.getD i []).filter fun j => (waitingFor edges (placed ++ [i]) j).card = 0

section Rounds

variable {edges : List (List Nat)} {p : Progress} {pending ready : List Nat} {i : Nat}

theorem ready_foldl_release (h : Consistent edges p pending) (hnd : pending.Nodup)
    (hb : ∀ j ∈ pending, j < edges.length) :
    (pending.foldl release p).ready =
      p.ready ++ pending.filter fun j => (waitingFor edges p.placed j).card = 0 := by
  induction pending generalizing p with
  | nil => simp
  | cons j pending ih =>
    obtain ⟨hnot, hnd⟩ := List.nodup_cons.1 hnd
    have hj := hb j List.mem_cons_self
    -- The position just placed still counts for `j`; the count is zero after it if no other does.
    have hdegree := h.degree j hj
    rw [if_pos List.mem_cons_self] at hdegree
    have hready : (release p j).ready =
        if (waitingFor edges p.placed j).card = 0 then p.ready ++ [j] else p.ready := by
      unfold release
      dsimp only
      rw [hdegree, Nat.add_sub_cancel]
    rw [List.foldl_cons, ih (consistent_release h hj hnot) hnd
      fun k hk => hb k (List.mem_cons_of_mem _ hk), hready, List.filter_cons]
    by_cases hfree : (waitingFor edges p.placed j).card = 0 <;> simp [hfree, release]

/-- A round moves the next ready position to those placed, and what it releases joins the queue. -/
theorem ready_advance (hg : IsGraph edges) (h : Consistent edges p [])
    (hready : p.ready = i :: ready) :
    (advance edges p).placed = p.placed ++ [i] ∧
      (advance edges p).ready = ready ++ released edges p.placed i := by
  have hplaced := (ready_prefix_release (edges.getD i []) (placeNext p i ready)).2
  have hqueue := ready_foldl_release (consistent_placeNext h hready) (hg.nodup i)
    fun j hj => hg.bound i j hj
  unfold advance
  rw [hready]
  exact ⟨hplaced, hqueue⟩

end Rounds

/-! ## Renumbering positions -/

/-- The positions of a graph under other numbers. -/
structure Renumbers (σ : Nat → Nat) (edges edges' : List (List Nat)) : Prop where
  length : edges'.length = edges.length
  inj : ∀ i < edges.length, ∀ j < edges.length, σ i = σ j → i = j
  surj : ∀ k < edges'.length, ∃ i < edges.length, σ i = k
  arcs : ∀ i < edges.length, edges'.getD (σ i) [] = (edges.getD i []).map σ

/-- Two countings have placed the same positions and have the same ones ready. -/
structure Agree (σ : Nat → Nat) (p p' : Progress) : Prop where
  placed : p'.placed = p.placed.map σ
  ready : p'.ready = p.ready.map σ

section Renumbering

variable {σ : Nat → Nat} {edges edges' : List (List Nat)} {p p' : Progress} {placed : List Nat}
  {i j : Nat}

theorem Renumbers.mem_map_iff (hσ : Renumbers σ edges edges') {js : List Nat}
    (hb : ∀ j ∈ js, j < edges.length) (hi : i < edges.length) : σ i ∈ js.map σ ↔ i ∈ js := by
  constructor
  · intro h
    obtain ⟨j, hj, heq⟩ := List.mem_map.1 h
    rwa [← hσ.inj j (hb j hj) i hi heq]
  · exact List.mem_map_of_mem

theorem Renumbers.arc_iff (hσ : Renumbers σ edges edges') (hg : IsGraph edges)
    (hi : i < edges.length) (hj : j < edges.length) : Arc edges' (σ i) (σ j) ↔ Arc edges i j := by
  rw [Arc, hσ.arcs i hi]
  exact hσ.mem_map_iff (fun k hk => hg.bound i k hk) hj

/-- As many positions wait under other numbers. -/
theorem Renumbers.card_waitingFor (hσ : Renumbers σ edges edges') (hg : IsGraph edges)
    (hb : ∀ i ∈ placed, i < edges.length) (hj : j < edges.length) :
    (waitingFor edges' (placed.map σ) (σ j)).card = (waitingFor edges placed j).card := by
  have himage : waitingFor edges' (placed.map σ) (σ j) = (waitingFor edges placed j).image σ := by
    ext k
    rw [mem_waitingFor, Finset.mem_image]
    constructor
    · rintro ⟨hnot, harc⟩
      obtain ⟨i, hi, rfl⟩ := hσ.surj k harc.lt
      rw [hσ.mem_map_iff hb hi] at hnot
      exact ⟨i, mem_waitingFor.2 ⟨hnot, (hσ.arc_iff hg hi hj).1 harc⟩, rfl⟩
    · rintro ⟨i, hi, rfl⟩
      obtain ⟨hnot, harc⟩ := mem_waitingFor.1 hi
      rw [hσ.mem_map_iff hb harc.lt]
      exact ⟨hnot, (hσ.arc_iff hg harc.lt hj).2 harc⟩
  rw [himage]
  refine Finset.card_image_of_injOn fun i hi k hk heq => ?_
  exact hσ.inj i (mem_waitingFor.1 hi).2.lt k (mem_waitingFor.1 hk).2.lt heq

theorem Renumbers.released_map (hσ : Renumbers σ edges edges') (hg : IsGraph edges)
    (hb : ∀ i ∈ placed, i < edges.length) (hi : i < edges.length) :
    released edges' (placed.map σ) (σ i) = (released edges placed i).map σ := by
  have hsnoc (k : Nat) (hk : k ∈ placed ++ [i]) : k < edges.length := by
    rcases List.mem_append.1 hk with hk | hk
    · exact hb k hk
    · rwa [List.mem_singleton.1 hk]
  rw [released, released, hσ.arcs i hi, List.filter_map]
  congr 1
  refine List.filter_congr fun j hj => ?_
  have hcard := hσ.card_waitingFor hg hsnoc (hg.bound i j hj)
  rw [List.map_append, List.map_singleton] at hcard
  rw [Function.comp_apply, hcard]

theorem agree_advance (hσ : Renumbers σ edges edges') (hg : IsGraph edges) (hg' : IsGraph edges')
    (h : Consistent edges p []) (h' : Consistent edges' p' []) (ha : Agree σ p p') :
    Agree σ (advance edges p) (advance edges' p') := by
  have hb (k : Nat) (hk : k ∈ p.placed ++ p.ready) : k < edges.length := ((h.free k).1 hk).1
  cases hready : p.ready with
  | nil =>
    have hready' : p'.ready = [] := by rw [ha.ready, hready, List.map_nil]
    unfold advance
    rw [hready, hready']
    exact ha
  | cons i ready =>
    have hready' : p'.ready = σ i :: ready.map σ := by rw [ha.ready, hready, List.map_cons]
    obtain ⟨hplaced, hqueue⟩ := ready_advance hg h hready
    obtain ⟨hplaced', hqueue'⟩ := ready_advance hg' h' hready'
    have hi : i < edges.length := hb i (by rw [hready]; simp)
    -- The queues go on in the same way, and what joins them is the same under other numbers.
    have hreleased := hσ.released_map hg (fun k hk => hb k (List.mem_append_left _ hk)) hi
    refine ⟨?_, ?_⟩
    · rw [hplaced, hplaced', ha.placed, List.map_append, List.map_singleton]
    · rw [hqueue, hqueue', ha.placed, hreleased, List.map_append]

theorem agree_placeUpTo (hσ : Renumbers σ edges edges') (hg : IsGraph edges)
    (hg' : IsGraph edges') (n : Nat) (h : Consistent edges p []) (h' : Consistent edges' p' [])
    (ha : Agree σ p p') : Agree σ (placeUpTo edges n p) (placeUpTo edges' n p') := by
  induction n generalizing p p' with
  | zero => exact ha
  | succ n ih =>
    exact ih (advance?_eq hg h).2 (advance?_eq hg' h').2 (agree_advance hσ hg hg' h h' ha)

/-- Where the first queues agree, the same positions are placed in the same order. -/
theorem placed_renumbered (hσ : Renumbers σ edges edges') (hg : IsGraph edges)
    (hg' : IsGraph edges') (hstart : (start edges').ready = (start edges).ready.map σ) :
    (place edges').placed = (place edges).placed.map σ := by
  rw [place, place, hσ.length]
  exact (agree_placeUpTo hσ hg hg' _ consistent_start consistent_start ⟨rfl, hstart⟩).placed

end Renumbering

/-! ## Lists of the same steps -/

theorem eraseDups_map {α β : Type} [DecidableEq α] [DecidableEq β] {f : α → β} {xs : List α}
    (h : ∀ x ∈ xs, ∀ y ∈ xs, f x = f y → x = y) : (xs.map f).eraseDups = xs.eraseDups.map f := by
  induction xs using eraseDups_induction with
  | nil => rfl
  | cons x xs ih =>
    have hfilter : (xs.map f).filter (fun b => !b == f x) = (xs.filter fun y => !y == x).map f := by
      rw [List.filter_map]
      congr 1
      refine List.filter_congr fun y hy => ?_
      have hiff : f y = f x ↔ y = x :=
        ⟨h y (List.mem_cons_of_mem _ hy) x List.mem_cons_self, congrArg f⟩
      simp [hiff]
    have hrest (y : α) (hy : y ∈ xs.filter fun y => !y == x) : y ∈ x :: xs :=
      List.mem_cons_of_mem _ (List.mem_filter.1 hy).1
    rw [List.map_cons, List.eraseDups_cons, hfilter, List.eraseDups_cons, List.map_cons,
      ih fun y hy z hz => h y (hrest y hy) z (hrest z hz)]

section Steps

variable {steps steps' : List Step} {σ : Nat → Nat}

/-- Every step of the one list stands in the other, at the position of the new number. -/
def Moves (σ : Nat → Nat) (steps steps' : List Step) : Prop :=
  ∀ i < steps.length, steps'[σ i]? = steps[i]?

theorem exists_moves (h : steps.Perm steps') : ∃ σ, Moves σ steps steps' := by
  have hplace (i : Nat) : ∃ k : Nat, i < steps.length → steps'[k]? = steps[i]? := by
    by_cases hi : i < steps.length
    · obtain ⟨k, hk⟩ := List.mem_iff_getElem?.1 (h.mem_iff.1 (List.getElem_mem hi))
      exact ⟨k, fun _ => by rw [hk, List.getElem?_eq_getElem hi]⟩
    · exact ⟨0, fun hlt => absurd hlt hi⟩
  choose σ hσ using hplace
  exact ⟨σ, hσ⟩

section Moved

variable (hids : (steps.map (·.id)).Nodup) (hperm : steps.Perm steps') (hσ : Moves σ steps steps')

include hids hσ

theorem inj_moved {i j : Nat} (hi : i < steps.length) (hj : j < steps.length) (heq : σ i = σ j) :
    i = j := by
  refine (List.getElem?_inj hi hids.of_map).1 ?_
  rw [← hσ i hi, ← hσ j hj, heq]

include hperm

theorem position?_moved (id : String) : position? steps' id = (position? steps id).map σ := by
  have hids' : (steps'.map (·.id)).Nodup := (hperm.map (·.id)).nodup_iff.1 hids
  cases hj : position? steps id with
  | none =>
    refine List.findIdx?_eq_none_iff.2 fun s hs => ?_
    exact List.findIdx?_eq_none_iff.1 hj s (hperm.mem_iff.2 hs)
  | some j =>
    obtain ⟨hlt, hat, -⟩ := List.findIdx?_eq_some_iff_getElem.1 hj
    have hid : steps[j].id = id := of_decide_eq_true hat
    rw [← hid]
    refine position?_of_nodup hids' ?_
    rw [hσ j hlt, List.getElem?_eq_getElem hlt]

theorem successors_moved (s : Step) : successors steps' s = (successors steps s).map σ := by
  have htargets : s.targets.filterMap (position? steps') =
      (s.targets.filterMap (position? steps)).map σ := by
    rw [List.map_filterMap]
    exact List.filterMap_congr fun id _ => position?_moved hids hperm hσ id
  have hlt (j : Nat) (hj : j ∈ s.targets.filterMap (position? steps)) : j < steps.length := by
    obtain ⟨id, -, hid⟩ := List.mem_filterMap.1 hj
    exact position?_lt hid
  rw [successors, successors, htargets]
  exact eraseDups_map fun i hi j hj => inj_moved hids hσ (hlt i hi) (hlt j hj)

/-- Moving steps renumbers the graph of their references. -/
theorem renumbers_edges : Renumbers σ (edges steps) (edges steps') where
  length := by rw [length_edges, length_edges, hperm.length_eq]
  inj i hi j hj heq := by
    rw [length_edges] at hi hj
    exact inj_moved hids hσ hi hj heq
  surj k hk := by
    rw [length_edges] at hk ⊢
    obtain ⟨i, hi⟩ := List.mem_iff_getElem?.1 (hperm.mem_iff.2 (List.getElem_mem hk))
    obtain ⟨hlt, -⟩ := List.getElem?_eq_some_iff.1 hi
    have hids' : (steps'.map (·.id)).Nodup := (hperm.map (·.id)).nodup_iff.1 hids
    refine ⟨i, hlt, ((List.getElem?_inj hk hids'.of_map).1 ?_).symm⟩
    rw [hσ i hlt, hi, List.getElem?_eq_getElem hk]
  arcs i hi := by
    rw [length_edges] at hi
    rw [getD_edges, getD_edges, hσ i hi]
    cases steps[i]? with
    | none => rfl
    | some s => exact successors_moved hids hperm hσ s

end Moved

/-- The first queue holds the positions of the parent steps. -/
theorem start_ready_eq (hids : (steps.map (·.id)).Nodup) :
    (start (edges steps)).ready = (parentSteps steps).filterMap fun s => position? steps s.id := by
  rw [← filterMap_start_ready hids, List.filterMap_filterMap]
  refine Eq.trans List.filterMap_some.symm (List.filterMap_congr fun i hi => ?_)
  have hlt : i < steps.length := length_edges steps ▸ (mem_start_ready.1 hi).1
  have hat := List.getElem?_eq_getElem hlt
  rw [hat, Option.bind_some, position?_of_nodup hids hat]

/-- Without a circle of references the order of steps depends on the order in which the parent steps
are given, and on no other. -/
theorem ofSteps_of_perm (hids : (steps.map (·.id)).Nodup) (hperm : steps.Perm steps')
    (hparents : parentSteps steps' = parentSteps steps) (hc : (ofSteps steps).cycle = none) :
    ofSteps steps' = ofSteps steps := by
  have hids' : (steps'.map (·.id)).Nodup := (hperm.map (·.id)).nodup_iff.1 hids
  obtain ⟨σ, hσ⟩ := exists_moves hperm
  -- The only place where the given order enters: both first queues are the parent steps in turn.
  have hstart : (start (edges steps')).ready = (start (edges steps)).ready.map σ := by
    rw [start_ready_eq hids, start_ready_eq hids', hparents, List.map_filterMap]
    exact List.filterMap_congr fun s _ => position?_moved hids hperm hσ s.id
  have hplaced := placed_renumbered (renumbers_edges hids hperm hσ) (isGraph_edges steps)
    (isGraph_edges steps') hstart
  have hc' : (ofSteps steps').cycle = none := by
    rw [cycle_eq_none_iff, hplaced, List.length_map, ← hperm.length_eq]
    exact (cycle_eq_none_iff steps).1 hc
  have hsteps : (ofSteps steps').steps = (ofSteps steps).steps := by
    rw [steps_of_cycle_eq_none hc', steps_of_cycle_eq_none hc, hplaced, List.filterMap_map]
    refine List.filterMap_congr fun i hi => ?_
    exact hσ i (List.mem_range.1 ((perm_placed hc).mem_iff.1 hi))
  calc ofSteps steps'
    _ = ⟨(ofSteps steps').steps, (ofSteps steps').cycle⟩ := rfl
    _ = ⟨(ofSteps steps).steps, (ofSteps steps).cycle⟩ := by rw [hsteps, hc', hc]

/-- Ordering steps a second time changes nothing, and reports the same circle if there is one. -/
theorem ofSteps_ofSteps (hids : (steps.map (·.id)).Nodup) :
    ofSteps (ofSteps steps).steps = ofSteps steps := by
  by_cases hc : (ofSteps steps).cycle = none
  · exact ofSteps_of_perm hids (perm_ofSteps steps).symm (parentSteps_ofSteps hids hc) hc
  · rw [steps_of_cycle_ne_none hc]

end Steps

/-- Works and letters lead to persons, and persons and works to firms; firms are given first. -/
def shuffledSteps : List Step :=
  let leading (id : String) (targets : List String) : Step :=
    { id
      pages := [{ sections := [{
        fields := targets.map fun t => { id := t, kind := .reference, target := some t } }] }] }
  [leading "firm" [], leading "person" ["firm"], leading "work" ["firm", "person", "firm"],
    leading "letter" ["person"]]

/-- Every step moves, and none moves a second time. -/
theorem ofSteps_ofSteps_shuffled :
    (shuffledSteps.map (·.id)).Nodup ∧
      (ofSteps shuffledSteps).steps.map (·.id) = ["work", "letter", "person", "firm"] ∧
      ofSteps (ofSteps shuffledSteps).steps = ofSteps shuffledSteps := by
  have hids : (shuffledSteps.map (·.id)).Nodup := by decide
  exact ⟨hids, by decide, ofSteps_ofSteps hids⟩

end Questionnaire.StepOrder
