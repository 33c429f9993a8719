import Mathlib
import Questionnaire.Proofs.Session.Parents
import Questionnaire.Proofs.Step.Depth

/-
  The pages of the parent steps stand in one line, and the user walks along it.

  `Form.stops` lists the places where a user can stand outside all records. A step is cut at the
  current page (`stopsOf_split`) and the parent steps at the current one, so the line is cut in two
  parts. `movesTo_next` and `movesTo_previous` say that going on leads to the first stop of the one
  and going back to the last stop of the other, whether or not that means another step. As no stop
  comes twice (`nodup_stops`), the position tells where a session stands in the line
  (`InLine.between`), and the two moves undo each other. `afterNext_split` follows a user who goes
  on again and again from the start of a form. This walks through the whole line only if the first
  step is a parent step (`walksLine_iff`); a form given out of order may begin with a child step,
  which no move leaves (`child_first_never_enters`).
-/

namespace Questionnaire

namespace Form

/-! ## The line -/

/-- The stops in a step: its pages, or one when it has none. -/
def stopsOf (f : Form) (i : Nat) : List (Nat × Nat) :=
  (List.range (max 1 (f.steps.getD i {}).pages.length)).map (i, ·)

/-- The stops of a user outside all records: those in the parent steps, in order. -/
def stops (f : Form) : List (Nat × Nat) := f.parentIndices.flatMap f.stopsOf

variable {f : Form} {i page : Nat}

theorem pairwise_parentIndices (f : Form) : f.parentIndices.Pairwise (· < ·) :=
  List.pairwise_lt_range.filter _

theorem mem_stops : (i, page) ∈ f.stops ↔
    f.isParent i ∧ page < max 1 (f.steps.getD i {}).pages.length := by
  rw [← mem_parentIndices]
  simp only [stops, stopsOf, List.mem_flatMap, List.mem_map, List.mem_range, Prod.mk.injEq]
  constructor
  · rintro ⟨j, hj, q, hq, rfl, rfl⟩
    exact ⟨hj, hq⟩
  · rintro ⟨hi, hpage⟩
    exact ⟨i, hi, page, hpage, rfl, rfl⟩

/-- No stop comes twice. -/
theorem nodup_stops (f : Form) : f.stops.Nodup := by
  refine List.nodup_flatMap.2 ⟨fun i _ => ?_, ?_⟩
  · exact List.nodup_range.map fun _ _ h => (Prod.mk.inj h).2
  · refine (pairwise_parentIndices f).imp fun {i j} hij => ?_
    rintro ⟨k, page⟩ hi hj
    obtain ⟨_, -, hi⟩ := List.mem_map.1 hi
    obtain ⟨_, -, hj⟩ := List.mem_map.1 hj
    cases hi
    cases hj
    exact Nat.lt_irrefl _ hij

/-- A step has a first stop. -/
theorem stopsOf_eq_cons (f : Form) (i : Nat) : ∃ rest, f.stopsOf i = (i, 0) :: rest := by
  obtain ⟨n, hn⟩ : ∃ n, max 1 (f.steps.getD i {}).pages.length = n + 1 :=
    Nat.exists_eq_succ_of_ne_zero (by omega)
  rw [stopsOf, hn, List.range_succ_eq_map]
  exact ⟨_, rfl⟩

/-- A step has a last stop. -/
theorem stopsOf_eq_concat (f : Form) (i : Nat) :
    ∃ rest, f.stopsOf i = rest ++ [(i, (f.steps.getD i {}).pages.length - 1)] := by
  obtain ⟨n, hn⟩ : ∃ n, max 1 (f.steps.getD i {}).pages.length = n + 1 :=
    Nat.exists_eq_succ_of_ne_zero (by omega)
  have hlast : (f.steps.getD i {}).pages.length - 1 = n := by omega
  rw [stopsOf, hn, List.range_succ, List.map_append, hlast]
  exact ⟨_, rfl⟩

theorem stopsOf_ne_nil (f : Form) (i : Nat) : f.stopsOf i ≠ [] := by
  obtain ⟨rest, h⟩ := f.stopsOf_eq_cons i
  rw [h]
  exact List.cons_ne_nil _ _

/-- A step is cut at a page into the stops before that page, the page and the stops after it. -/
theorem stopsOf_split (h : page < max 1 (f.steps.getD i {}).pages.length) :
    f.stopsOf i = (List.range page).map (i, ·) ++ (i, page) ::
      (List.range' (page + 1) ((f.steps.getD i {}).pages.length - (page + 1))).map (i, ·) := by
  obtain ⟨m, hm⟩ : ∃ m, max 1 (f.steps.getD i {}).pages.length = page + (m + 1) :=
    ⟨max 1 (f.steps.getD i {}).pages.length - (page + 1), by omega⟩
  have hrest : (f.steps.getD i {}).pages.length - (page + 1) = m := by omega
  rw [stopsOf, hm, hrest, List.range_eq_range', List.range_eq_range', ← List.range'_append_1,
    List.map_append, Nat.zero_add, List.range'_succ, List.map_cons]

end Form

/-- In an ascending list the first entry above one of its entries is the next one. -/
theorem find?_gt_of_pairwise {before after : List Nat} {i : Nat}
    (h : (before ++ i :: after).Pairwise (· < ·)) :
    (before ++ i :: after).find? (i < ·) = after.head? := by
  obtain ⟨-, hafter, hbefore⟩ := List.pairwise_append.1 h
  have hskip : before.find? (i < ·) = none := List.find?_eq_none.2 fun j hj => by
    simpa using (hbefore j hj i List.mem_cons_self).le
  rw [List.find?_append, hskip, Option.none_or, List.find?_cons_of_neg (by simp)]
  cases after with
  | nil => rfl
  | cons j after =>
    exact List.find?_cons_of_pos (by simpa using (List.pairwise_cons.1 hafter).1 j List.mem_cons_self)

/-- In an ascending list the last entry below one of its entries is the one before it. -/
theorem find?_lt_of_pairwise {before after : List Nat} {i : Nat}
    (h : (before ++ i :: after).Pairwise (· < ·)) :
    (before ++ i :: after).reverse.find? (· < i) = before.getLast? := by
  obtain ⟨-, hafter, hbefore⟩ := List.pairwise_append.1 h
  have hskip : (i :: after).reverse.find? (· < i) = none := List.find?_eq_none.2 fun j hj => by
    rcases List.mem_cons.1 (List.mem_reverse.1 hj) with rfl | hj
    · simp
    · simpa using ((List.pairwise_cons.1 hafter).1 j hj).le
  rw [List.reverse_append, List.find?_append, hskip, Option.none_or, ← List.head?_reverse]
  cases hb : before.reverse with
  | nil => rfl
  | cons j rest =>
    have hj : j ∈ before := List.mem_reverse.1 (hb ▸ List.mem_cons_self)
    exact List.find?_cons_of_pos (by simpa using hbefore j hj i List.mem_cons_self)

namespace Session

/-! ## Moving by one page -/

/-- Where a session stands: the current step and its current page. -/
def position (s : Session) : Nat × Nat := (s.step, s.page)

variable {s : Session}

theorem position_commit (s : Session) : s.commit.position = s.position := by
  simp [position]

theorem position_setPage {page : Nat} (h : s.InPlace) :
    ({ s.commit with pages := s.pages.set s.step page } : Session).position = (s.step, page) := by
  have hlt : s.step < s.commit.pages.length := by
    rw [commit_pages, h.length_pages]
    exact h.step_lt
  have hpage := pageOf_set (s := s.commit) s.step page s.step hlt
  rw [if_pos rfl, commit_pages] at hpage
  exact Prod.ext (commit_step s) ((congrArg _ (commit_step s)).trans hpage)

theorem position_enter (h : s.InPlace) {step page : Nat} (hstep : step < s.form.steps.length) :
    (s.commit.enter step page).position = (step, page) := by
  have hlt : step < s.commit.pages.length := by rwa [commit_pages, h.length_pages]
  have hpage := pageOf_set (s := s.commit) step page step hlt
  rw [if_pos rfl] at hpage
  exact Prod.ext rfl hpage

theorem next_of_lt (h : s.page + 1 < s.currentStep.pages.length) :
    s.next = (true, { s.commit with pages := s.pages.set s.step (s.page + 1) }) := by
  have hlast : s.isLastPage = false := by simpa [isLastPage] using h
  simp [next, hlast]

theorem next_of_le (h : s.currentStep.pages.length ≤ s.page + 1) (hleave : s.mayLeave = true) :
    s.next = (s.form.parentIndices.find? (s.step < ·)).elim (false, s.commit)
      fun step => (true, s.commit.enter step 0) := by
  have hlast : s.isLastPage = true := by simpa [isLastPage] using h
  cases hfind : s.form.parentIndices.find? (s.step < ·) <;> simp [next, hlast, hleave, hfind]

theorem previous_of_ne (h : s.page ≠ 0) :
    s.previous = (true, { s.commit with pages := s.pages.set s.step (s.page - 1) }) := by
  have hfirst : s.isFirstPage = false := by simpa [isFirstPage] using h
  simp [previous, hfirst]

theorem previous_of_eq (h : s.page = 0) (hleave : s.mayLeave = true) :
    s.previous = (s.form.parentIndices.reverse.find? (· < s.step)).elim (false, s.commit)
      fun step => (true, s.commit.enter step (s.lastPageOf step)) := by
  have hfirst : s.isFirstPage = true := by simpa [isFirstPage] using h
  cases hfind : s.form.parentIndices.reverse.find? (· < s.step) <;>
    simp [previous, hfirst, hleave, hfind]

/-- What a move does that has some stops before it: it goes to the first of them and says so, or
stays and says that there is none. -/
def MovesTo (s : Session) (move : Bool × Session) : List (Nat × Nat) → Prop
  | [] => move.1 = false ∧ move.2.position = s.position
  | stop :: _ => move.1 = true ∧ move.2.position = stop

/-- The session stands in the line between the stops before and after it, and moves along. -/
structure Between (s : Session) (before after : List (Nat × Nat)) : Prop where
  split : s.form.stops = before ++ s.position :: after
  next : s.MovesTo s.next after
  previous : s.MovesTo s.previous before.reverse
  final : s.isFinalPage ↔ after = []

section Line

variable {earlier later : List Nat} (h : s.InPlace) (hleave : s.mayLeave = true)
  (hsplit : s.form.parentIndices = earlier ++ s.step :: later)

include hsplit

theorem mem_later_lt {i : Nat} (hi : i ∈ later) : i < s.form.steps.length :=
  lt_of_mem_parentIndices (hsplit ▸ List.mem_append_right _ (List.mem_cons_of_mem _ hi))

theorem mem_earlier_lt {i : Nat} (hi : i ∈ earlier) : i < s.form.steps.length :=
  lt_of_mem_parentIndices (hsplit ▸ List.mem_append_left _ hi)

include h hleave

/-- Behind the last page of a step stands the first stop of the next parent step. -/
theorem movesTo_next : s.MovesTo s.next
    ((List.range' (s.page + 1) (s.currentStep.pages.length - (s.page + 1))).map (s.step, ·) ++
      later.flatMap s.form.stopsOf) := by
  rcases Nat.lt_or_ge (s.page + 1) s.currentStep.pages.length with hpage | hpage
  · obtain ⟨m, hm⟩ := Nat.exists_eq_succ_of_ne_zero (Nat.sub_ne_zero_of_lt hpage)
    rw [next_of_lt hpage, hm, List.range'_succ, List.map_cons, List.cons_append]
    exact ⟨rfl, position_setPage h⟩
  · have hfind : s.form.parentIndices.find? (s.step < ·) = later.head? := by
      rw [hsplit]
      exact find?_gt_of_pairwise (hsplit ▸ s.form.pairwise_parentIndices)
    rw [next_of_le hpage hleave, hfind, Nat.sub_eq_zero_of_le hpage, List.range'_zero, List.map_nil,
      List.nil_append]
    cases later with
    | nil => exact ⟨rfl, position_commit s⟩
    | cons i later =>
      obtain ⟨rest, hrest⟩ := s.form.stopsOf_eq_cons i
      rw [List.flatMap_cons, hrest]
      exact ⟨rfl, position_enter h (mem_later_lt hsplit List.mem_cons_self)⟩

/-- Before the first page of a step stands the last stop of the parent step before it. -/
theorem movesTo_previous : s.MovesTo s.previous
    (earlier.flatMap s.form.stopsOf ++ (List.range s.page).map (s.step, ·)).reverse := by
  rcases Decidable.em (s.page = 0) with hpage | hpage
  · have hfind : s.form.parentIndices.reverse.find? (· < s.step) = earlier.getLast? := by
      rw [hsplit]
      exact find?_lt_of_pairwise (hsplit ▸ s.form.pairwise_parentIndices)
    rw [previous_of_eq hpage hleave, hfind, hpage, List.range_zero, List.map_nil, List.append_nil]
    rcases List.eq_nil_or_concat earlier with rfl | ⟨init, i, rfl⟩
    · exact ⟨rfl, position_commit s⟩
    · obtain ⟨rest, hrest⟩ := s.form.stopsOf_eq_concat i
      have hi : i ∈ init.concat i := by simp
      rw [List.concat_eq_append, List.flatMap_append, List.flatMap_singleton, hrest,
        ← List.append_assoc, List.reverse_concat, List.getLast?_concat]
      exact ⟨rfl, position_enter h (mem_earlier_lt hsplit hi)⟩
  · obtain ⟨n, hn⟩ := Nat.exists_eq_succ_of_ne_zero hpage
    rw [previous_of_ne hpage, hn, List.range_succ, List.map_append, ← List.append_assoc,
      List.map_singleton, List.reverse_concat]
    exact ⟨rfl, position_setPage h⟩

omit h in
theorem isFinalPage_iff : s.isFinalPage ↔
    (List.range' (s.page + 1) (s.currentStep.pages.length - (s.page + 1))).map (s.step, ·) ++
      later.flatMap s.form.stopsOf = [] := by
  have hactive := active_of_mayLeave hleave
  have hlater : s.form.parentIndices.getLast? = some s.step ↔ later = [] := by
    rw [hsplit]
    rcases List.eq_nil_or_concat later with rfl | ⟨init, i, rfl⟩
    · simp
    · have hlt : s.step < i := by
        have hpairwise := hsplit ▸ s.form.pairwise_parentIndices
        exact (List.pairwise_cons.1 (List.pairwise_append.1 hpairwise).2.1).1 i (by simp)
      rw [List.concat_eq_append, ← List.cons_append, ← List.append_assoc, List.getLast?_concat]
      simp [hlt.ne']
  have hstops : later.flatMap s.form.stopsOf = [] ↔ later = [] := by
    rw [List.flatMap_eq_nil_iff]
    refine ⟨fun hall => List.eq_nil_iff_forall_not_mem.2 fun i hi => ?_, fun hnil => by simp [hnil]⟩
    exact s.form.stopsOf_ne_nil i (hall i hi)
  rw [isFinalPage, hactive, List.append_eq_nil_iff, hstops, ← hlater]
  simp [isLastPage, Nat.sub_eq_zero_iff_le]

end Line

/-- Outside all records a session at a parent step stands in the line. -/
theorem exists_between (h : s.InPlace) (hactive : s.active = []) (hparent : s.form.isParent s.step) :
    ∃ before after, s.Between before after := by
  have hleave : s.mayLeave = true := by simp [mayLeave, hactive, hparent]
  obtain ⟨earlier, later, hsplit⟩ := List.append_of_mem (Form.mem_parentIndices.2 hparent)
  refine ⟨_, _, ?_, movesTo_next h hleave hsplit, movesTo_previous h hleave hsplit,
    isFinalPage_iff hleave hsplit⟩
  rw [Form.stops, hsplit, List.flatMap_append, List.flatMap_cons,
    Form.stopsOf_split (h.page_lt s.step h.step_lt), List.append_assoc, List.append_assoc,
    List.cons_append]
  rfl

/-! ## Sessions in the line -/

/-- A session that a run comes to, outside all records at a parent step. -/
structure InLine (f : Form) (s : Session) : Prop where
  reached : Reached f s
  active : s.active = []
  parent : f.isParent s.step

section InLine

variable {f : Form} {before after : List (Nat × Nat)}

theorem InLine.exists_between (h : InLine f s) :
    ∃ before after, s.Between before after ∧ f.stops = before ++ s.position :: after := by
  have hform := h.reached.form_eq
  obtain ⟨before, after, hs⟩ :=
    Session.exists_between h.reached.inPlace h.active (hform.symm ▸ h.parent)
  exact ⟨before, after, hs, hform ▸ hs.split⟩

/-- Where a session stands in the line is told by its position. -/
theorem InLine.between (h : InLine f s) (hsplit : f.stops = before ++ s.position :: after) :
    s.Between before after := by
  obtain ⟨before', after', hs, hsplit'⟩ := h.exists_between
  have hnodup := f.nodup_stops
  rw [hsplit] at hnodup hsplit'
  have hbefore : s.position ∉ before := fun hmem =>
    (List.nodup_append.1 hnodup).2.2 _ hmem _ List.mem_cons_self rfl
  have hafter : s.position ∉ after :=
    (List.nodup_cons.1 (List.nodup_append.1 hnodup).2.1).1
  obtain ⟨rfl, -, rfl⟩ := (List.append_cons_inj_of_notMem hbefore hafter).1 hsplit'
  exact hs

/-- Moving to a stop of the line stays in the line. -/
theorem InLine.of_move (h : InLine f s) {a : SessionAction} (hfresh : s.Fresh a)
    (hactive : (s.perform a).active = []) (hstop : (s.perform a).position ∈ f.stops) :
    InLine f (s.perform a) :=
  ⟨h.reached.perform hfresh, hactive, (Form.mem_stops.1 hstop).1⟩

theorem active_next (s : Session) : s.next.2.active = s.active := by
  have hout := s.outcome_next
  generalize s.next.2 = t at hout
  cases hout with
  | nextPage | nextStep | nextEnd => exact commit_active s
  | failed herror => cases herror

theorem active_previous (s : Session) : s.previous.2.active = s.active := by
  have hout := s.outcome_previous
  generalize s.previous.2 = t at hout
  cases hout with
  | previousPage | previousStep | previousEnd => exact commit_active s
  | failed herror => cases herror

theorem MovesTo.position_mem {move : Bool × Session} {stops : List (Nat × Nat)}
    (h : s.MovesTo move stops) : move.2.position ∈ s.position :: stops := by
  cases stops with
  | nil => exact h.2 ▸ List.mem_cons_self
  | cons => exact h.2 ▸ List.mem_cons_of_mem _ List.mem_cons_self

theorem InLine.next (h : InLine f s) : InLine f s.next.2 := by
  obtain ⟨before, after, hs, hsplit⟩ := h.exists_between
  refine h.of_move (a := .next) trivial ((active_next s).trans h.active) ?_
  exact hsplit ▸ List.mem_append_right _ hs.next.position_mem

theorem InLine.previous (h : InLine f s) : InLine f s.previous.2 := by
  obtain ⟨before, after, hs, hsplit⟩ := h.exists_between
  refine h.of_move (a := .previous) trivial ((active_previous s).trans h.active) ?_
  have hmem : s.previous.2.position ∈ s.position :: before.reverse := hs.previous.position_mem
  show s.previous.2.position ∈ f.stops
  rw [hsplit]
  rcases List.mem_cons.1 hmem with heq | hmem
  · exact List.mem_append_right _ (heq ▸ List.mem_cons_self)
  · exact List.mem_append_left _ (List.mem_reverse.1 hmem)

/-- Going back undoes going on. -/
theorem InLine.previous_next (h : InLine f s) (hnext : s.next.1 = true) :
    s.next.2.previous.1 = true ∧ s.next.2.previous.2.position = s.position := by
  obtain ⟨before, after, hs, hsplit⟩ := h.exists_between
  have hmove := hs.next
  cases after with
  | nil => exact absurd (hmove.1.symm.trans hnext) Bool.false_ne_true
  | cons stop after =>
    have hthere : f.stops = (before ++ [s.position]) ++ s.next.2.position :: after := by
      rw [hmove.2, hsplit, List.append_assoc, List.singleton_append]
    have hback := (h.next.between hthere).previous
    rwa [List.reverse_concat] at hback

/-- Going on undoes going back. -/
theorem InLine.next_previous (h : InLine f s) (hprevious : s.previous.1 = true) :
    s.previous.2.next.1 = true ∧ s.previous.2.next.2.position = s.position := by
  obtain ⟨before, after, hs, hsplit⟩ := h.exists_between
  have hmove := hs.previous
  rcases List.eq_nil_or_concat before with rfl | ⟨init, stop, rfl⟩
  · exact absurd (hmove.1.symm.trans hprevious) Bool.false_ne_true
  · rw [List.concat_eq_append, List.reverse_concat] at hmove
    have hthere : f.stops = init ++ s.previous.2.position :: (s.position :: after) := by
      rw [hmove.2, hsplit, List.concat_eq_append, List.append_assoc, List.singleton_append]
    exact (h.previous.between hthere).next

end InLine

/-! ## The walk from the start -/

/-- The session after going on to the next page again and again. -/
def afterNext (s : Session) (k : Nat) : Session := s.run (List.replicate k .next)

/-- Going on from the start shows all stops in order, then stays at the last one. -/
structure WalksLine (s : Session) : Prop where
  visits : (List.range s.form.stops.length).map (fun k => (s.afterNext k).position) = s.form.stops
  ends : ∀ k, s.form.stops.length ≤ k + 1 →
    (s.afterNext k).isFinalPage ∧ (s.afterNext k).next.1 = false

theorem afterNext_succ (s : Session) (k : Nat) : s.afterNext (k + 1) = (s.afterNext k).next.2 := by
  rw [afterNext, List.replicate_succ', run, List.foldl_append]
  rfl

section Walk

variable {f : Form} {s₀ : Session} (hstart : start f = .ok s₀)

include hstart

theorem position_start : s₀.position = (0, 0) := by
  obtain ⟨first, rest, hsteps, rfl⟩ := eq_of_start hstart
  simp [position, page, pageOf, hsteps]

theorem reached_start : Reached f s₀ := ⟨s₀, [], hstart, trivial, rfl⟩

theorem inLine_start (hparent : f.isParent 0) : InLine f s₀ := by
  refine ⟨reached_start hstart, ?_, ?_⟩
  · obtain ⟨first, rest, -, rfl⟩ := eq_of_start hstart
    rfl
  · have hstep : s₀.step = 0 := congrArg Prod.fst (position_start hstart)
    rwa [hstep]

/-- A form whose first step is a parent step starts at its first stop. -/
theorem exists_stops_eq (hparent : f.isParent 0) : ∃ rest, f.stops = s₀.position :: rest := by
  obtain ⟨before, after, hsplit⟩ := List.append_of_mem (Form.mem_parentIndices.2 hparent)
  have hbefore : before = [] := by
    refine List.eq_nil_iff_forall_not_mem.2 fun i hi => Nat.not_lt_zero i ?_
    have hpairwise := hsplit ▸ f.pairwise_parentIndices
    exact (List.pairwise_append.1 hpairwise).2.2 i hi 0 List.mem_cons_self
  obtain ⟨rest, hrest⟩ := f.stopsOf_eq_cons 0
  rw [Form.stops, hsplit, hbefore, List.nil_append, List.flatMap_cons, hrest, position_start hstart]
  exact ⟨_, rfl⟩

theorem afterNext_split (hparent : f.isParent 0) (k : Nat) : InLine f (s₀.afterNext k) ∧
    ∃ before after, f.stops = before ++ (s₀.afterNext k).position :: after ∧
      before.length = min k (f.stops.length - 1) := by
  induction k with
  | zero =>
    obtain ⟨rest, hrest⟩ := exists_stops_eq hstart hparent
    exact ⟨inLine_start hstart hparent, [], rest, hrest, by simp⟩
  | succ k ih =>
    obtain ⟨hin, before, after, hsplit, hlength⟩ := ih
    have hmove := (hin.between hsplit).next
    have htotal := congrArg List.length hsplit
    rw [List.length_append, List.length_cons] at htotal
    rw [afterNext_succ]
    refine ⟨hin.next, ?_⟩
    cases after with
    | nil =>
      rw [List.length_nil] at htotal
      exact ⟨before, [], by rw [hmove.2, hsplit], by omega⟩
    | cons stop after =>
      rw [List.length_cons] at htotal
      refine ⟨before ++ [(s₀.afterNext k).position], after, ?_, ?_⟩
      · rw [hmove.2, hsplit, List.append_assoc, List.singleton_append]
      · rw [List.length_append, List.length_singleton]
        omega

/-- Whoever walks through the whole line starts in it, so at a parent step. -/
theorem isParent_of_walksLine (hwalk : s₀.WalksLine) : f.isParent 0 := by
  have hform := (reached_start hstart).form_eq
  have hposition : s₀.position = (0, 0) := position_start hstart
  cases hstops : f.stops with
  | nil =>
    -- The session is final from the start on, so the last parent step is where it stands.
    have hfinal : s₀.isFinalPage :=
      (hwalk.ends 0 (by rw [hform, hstops]; exact Nat.zero_le _)).1
    rw [isFinalPage, Bool.and_eq_true, decide_eq_true_eq, hform,
      show s₀.step = 0 from congrArg Prod.fst hposition] at hfinal
    exact Form.mem_parentIndices.1 (List.mem_of_getLast? hfinal.2)
  | cons stop rest =>
    have hfirst := congrArg List.head? hwalk.visits
    rw [hform, hstops, List.length_cons, List.range_succ_eq_map, List.map_cons] at hfirst
    have hmem : s₀.position ∈ f.stops := by
      rw [hstops]
      exact Option.some.inj hfirst ▸ List.mem_cons_self
    exact (Form.mem_stops.1 (hposition ▸ hmem)).1

theorem walksLine_of_isParent (hparent : f.isParent 0) : s₀.WalksLine := by
  have hform := (reached_start hstart).form_eq
  refine ⟨?_, fun k hk => ?_⟩
  · rw [hform]
    refine List.ext_getElem (by simp) fun k hk hk' => ?_
    obtain ⟨-, before, after, hsplit, hlength⟩ := afterNext_split hstart hparent k
    have hlength : before.length = k := by omega
    rw [List.getElem_map, List.getElem_range, List.getElem_of_eq hsplit]
    simp [hlength]
  · rw [hform] at hk
    obtain ⟨hin, before, after, hsplit, hlength⟩ := afterNext_split hstart hparent k
    have htotal := congrArg List.length hsplit
    rw [List.length_append, List.length_cons] at htotal
    have hafter : after = [] := List.length_eq_zero_iff.1 (by omega)
    have hs := hin.between hsplit
    have hmove := hs.next
    rw [hafter] at hmove
    exact ⟨hs.final.2 hafter, hmove.1⟩

/-- The line is walked through from the start exactly when the first step is a parent step. -/
theorem walksLine_iff : s₀.WalksLine ↔ f.isParent 0 :=
  ⟨isParent_of_walksLine hstart, walksLine_of_isParent hstart⟩

end Walk

/-- The pages of the parent steps stand in one line. Outside all records a session at a parent step
stands in it; going on and going back move along it by one, and undo each other. From the start of a
form the whole line is walked through exactly when the first step is a parent step, as in every form
whose steps stand in order, and in every compiled form without a circle of references. -/
theorem pages_in_line {f : Form} (hsteps : f.steps ≠ []) :
    f.stops.Nodup ∧
    (∀ s, Reached f s → s.active = [] → f.isParent s.step →
      (∃ before after, s.Between before after) ∧
      (s.next.1 = true →
        s.next.2.previous.1 = true ∧ s.next.2.previous.2.position = s.position) ∧
      (s.previous.1 = true →
        s.previous.2.next.1 = true ∧ s.previous.2.next.2.position = s.position)) ∧
    ∃ s₀, start f = .ok s₀ ∧ (s₀.WalksLine ↔ f.isParent 0) ∧ (f.InOrder → s₀.WalksLine) ∧
      ∀ p, f = Form.compile p → f.cycle = none → s₀.WalksLine := by
  obtain ⟨s₀, hstart, -⟩ := exists_start hsteps
  have hwalk := walksLine_iff hstart
  refine ⟨f.nodup_stops, fun s hreached hactive hparent => ?_, s₀, hstart, hwalk,
    fun horder => hwalk.2 (horder.isParent_zero hsteps), fun p hp hcycle => hwalk.2 ?_⟩
  · have hin : InLine f s := ⟨hreached, hactive, hparent⟩
    obtain ⟨before, after, hs, -⟩ := hin.exists_between
    exact ⟨⟨before, after, hs⟩, hin.previous_next, hin.next_previous⟩
  · subst hp
    exact (Form.parentsFirst_compile hsteps hcycle).first

/-- A package whose works fill two pages, and whose letters are presented like works. -/
def lettersPackage : Package where
  bundle := {
    main := { captureBase := {
      digest := "work", attributes := [("title", .text "Text"), ("author", .text "refs:person")] } }
    dependencies := [
      { captureBase := {
        digest := "letter", attributes := [("date", .text "Text"), ("sender", .text "refs:person")] } },
      { captureBase := { digest := "person", attributes := [("name", .text "Text")] } }] }
  presentations := [
    { captureBase := "work"
      pages := [{ key := "work", order := [.single "title"] },
        { key := "people", order := [.single "author"] }]
      pageOrder := ["work", "people"]
      interactions := [SortedMap.empty.insert "author" { kind := some (.name "reference") }] },
    { captureBase := "letter"
      interactions := [SortedMap.empty.insert "sender" { kind := some (.name "reference") }] }]

theorem steps_lettersPackage : (Form.compile lettersPackage).steps ≠ [] := by
  have hlength : (Form.compile lettersPackage).steps.length = 3 := by cbv
  exact List.ne_nil_of_length_eq_add_one hlength

theorem cycle_lettersPackage : (Form.compile lettersPackage).cycle = none := by cbv

theorem place_nextRun : (start (Form.compile lettersPackage)).toOption.any fun s =>
    (s.run [.next]).active = [] ∧
      (Form.compile lettersPackage).isParent (s.run [.next]).step ∧
      (s.run [.next]).next.1 = true ∧ (s.run [.next]).previous.1 = true := by cbv

/-- Between the two pages of the work and the letter there is one step in each direction. -/
theorem pages_in_line_letters : (Form.compile lettersPackage).steps ≠ [] ∧
    (Form.compile lettersPackage).cycle = none ∧ (Form.compile lettersPackage).InOrder ∧
    ∃ s₀, start (Form.compile lettersPackage) = .ok s₀ ∧ s₀.WalksLine ∧
      (Form.compile lettersPackage).isParent 0 ∧
      Reached (Form.compile lettersPackage) (s₀.run [.next]) ∧ (s₀.run [.next]).active = [] ∧
      (Form.compile lettersPackage).isParent (s₀.run [.next]).step ∧
      (∃ before after, (s₀.run [.next]).Between before after) ∧
      (s₀.run [.next]).next.2.previous.2.position = (s₀.run [.next]).position ∧
      (s₀.run [.next]).previous.2.next.2.position = (s₀.run [.next]).position := by
  obtain ⟨-, hline, s₀, hstart, hiff, -, hcompiled⟩ := pages_in_line steps_lettersPackage
  have hwalk := hcompiled lettersPackage rfl cycle_lettersPackage
  have hreached : Reached (Form.compile lettersPackage) (s₀.run [.next]) :=
    reached_of_start hstart (by decide)
  obtain ⟨hactive, hparent, hnext, hprevious⟩ := of_start hstart place_nextRun
  obtain ⟨hbetween, hback, hforth⟩ := hline _ hreached hactive hparent
  exact ⟨steps_lettersPackage, cycle_lettersPackage, Form.inOrder_compile cycle_lettersPackage, s₀,
    hstart, hwalk, hiff.1 hwalk, hreached, hactive, hparent, hbetween, (hback hnext).2,
    (hforth hprevious).2⟩

/-- A form given out of order: persons come before the works that lead to them. -/
def childFirstForm : Form where
  steps := [
    { id := "person", pages := [{ sections := [{ fields := [{ id := "name" }] }] }] },
    { id := "work"
      pages := [{ sections := [{ fields := [
        { id := "author", kind := .reference, target := some "person" }] }] }] }]

/-- Out of order the first step may be a child step; then the line is never entered. -/
theorem child_first_never_enters : childFirstForm.steps ≠ [] ∧ childFirstForm.cycle = none ∧
    (∀ i, ¬ Relation.TransGen (StepOrder.Leads childFirstForm.steps) i i) ∧
    childFirstForm.stops = [(1, 0)] ∧
    ∃ s₀, start childFirstForm = .ok s₀ ∧ ¬ s₀.WalksLine ∧
      ∀ k, (s₀.afterNext k).position = (0, 0) := by
  have hsteps : childFirstForm.steps ≠ [] := List.cons_ne_nil _ _
  have hcircle : ∀ i, ¬ Relation.TransGen (StepOrder.Leads childFirstForm.steps) i i := by
    have hlength : (StepOrder.place (StepOrder.edges childFirstForm.steps)).placed.length =
        (StepOrder.edges childFirstForm.steps).length := by decide
    have hacyclic := (StepOrder.length_placed_iff (StepOrder.isGraph_edges _)).1 hlength
    intro i hi
    exact hacyclic i (hi.lift id fun _ _ h => StepOrder.arc_edges_iff.2 h)
  obtain ⟨s₀, hstart, -⟩ := exists_start hsteps
  have hnext : s₀.next.2 = s₀ := by
    cases hstart
    decide
  refine ⟨hsteps, rfl, hcircle, by decide, s₀, hstart, fun hwalk => ?_, fun k => ?_⟩
  · have hparent := (walksLine_iff hstart).1 hwalk
    exact absurd hparent (by decide)
  · have hstay : s₀.afterNext k = s₀ := by
      induction k with
      | zero => rfl
      | succ k ih => rw [afterNext_succ, ih, hnext]
    rw [hstay, position_start hstart]

end Session
end Questionnaire
