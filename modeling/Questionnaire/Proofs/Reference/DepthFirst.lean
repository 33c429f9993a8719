import Mathlib.Data.List.Nodup
import Mathlib.Data.Set.Insert
import Mathlib.Logic.Relation
import Questionnaire.Proofs.Reference.Index
import Questionnaire.Reference.Graph

/-
  The reference graph of a unit is the depth-first search from it.

  `Visits` is the search as a recursion: visiting a unit visits the units it refers to, one after
  another, before anything else. The walk of the library keeps a stack instead. What ties the two
  is `walk_append`: a walk may be cut anywhere, and the second part goes on with what the first
  part has seen.

  * `visits_extract`, `Visits.unique`: the graph of a unit is what the search finds, and nothing
    else is.
  * `nodup_ids`: no unit is visited twice.
  * `exists_unit`: a node is that of the unit its identifier leads to.
  * `mem_ids_extract_iff`: the units visited are those that can be reached. A unit counts as seen by
    the identifier it is known by, so where the root shares that identifier with another unit, it
    stands for the root alone (`unitIn?`).
-/

namespace Questionnaire

open Relation

/-! ## References of a unit -/

namespace CaptureUnit

variable {index : UnitIndex} {u : CaptureUnit} {name id : String}

/-- An attribute is declared as a reference, and the unit it names is known by an identifier. -/
def RefersTo (index : UnitIndex) (u : CaptureUnit) (name id : String) : Prop :=
  ∃ declared named, (name, declared) ∈ u.captureBase.attributes ∧
    referenceTarget? declared = some named ∧ index.canonicalId? named = some id

theorem mem_links : (name, id) ∈ u.links index ↔ u.RefersTo index name id := by
  simp only [links, declaredTargets, RefersTo, List.mem_filterMap, Option.map_eq_some_iff,
    Prod.mk.injEq]
  constructor
  · rintro ⟨_, ⟨⟨name, declared⟩, hmem, named, hnamed, rfl⟩, id, hid, rfl, rfl⟩
    exact ⟨declared, named, hmem, hnamed, hid⟩
  · rintro ⟨declared, named, hmem, hnamed, hid⟩
    exact ⟨(name, named), ⟨(name, declared), hmem, named, hnamed, rfl⟩, id, hid, rfl, rfl⟩

theorem refersTo_of_get? (h : (SortedMap.ofList (u.links index)).get? name = some id) :
    u.RefersTo index name id := by
  rw [SortedMap.get?_ofList] at h
  obtain ⟨⟨name', id'⟩, hfind, rfl⟩ := Option.map_eq_some_iff.1 h
  have hname : name' = name := by simpa using List.find?_some hfind
  subst hname
  exact mem_links.1 (List.mem_reverse.1 (List.mem_of_find?_eq_some hfind))

theorem exists_get?_of_refersTo (h : u.RefersTo index name id) :
    ∃ id', (SortedMap.ofList (u.links index)).get? name = some id' := by
  have hsome : ((u.links index).reverse.find? (·.1 = name)).isSome :=
    List.find?_isSome.2 ⟨(name, id), List.mem_reverse.2 (mem_links.2 h), decide_eq_true rfl⟩
  obtain ⟨link, hlink⟩ := Option.isSome_iff_exists.1 hsome
  exact ⟨link.2, by rw [SortedMap.get?_ofList, hlink, Option.map_some]⟩

/-- An attribute that is declared once refers to one unit at most. -/
theorem RefersTo.unique (hnames : (u.captureBase.attributes.map (·.1)).Nodup) {id' : String}
    (h : u.RefersTo index name id) (h' : u.RefersTo index name id') : id = id' := by
  obtain ⟨declared, named, hmem, hnamed, hid⟩ := h
  obtain ⟨declared', named', hmem', hnamed', hid'⟩ := h'
  have heq := List.inj_on_of_nodup_map hnames hmem hmem' rfl
  cases heq
  rw [hnamed] at hnamed'
  cases hnamed'
  rw [hid] at hid'
  cases hid'
  rfl

theorem mem_successors : id ∈ u.successors index ↔ ∃ name, u.RefersTo index name id := by
  simp only [successors, List.mem_eraseDups, List.mem_map, Prod.exists, exists_eq_right,
    ← mem_links]

theorem knows_of_refersTo (hc : index.Canonical) (h : u.RefersTo index name id) :
    index.Knows id := by
  obtain ⟨_, _, _, _, hid⟩ := h
  exact UnitIndex.knows_of_canonicalId? hc hid

theorem knows_of_mem_successors (hc : index.Canonical) (h : id ∈ u.successors index) :
    index.Knows id := by
  obtain ⟨_, hname⟩ := mem_successors.1 h
  exact knows_of_refersTo hc hname

end CaptureUnit

namespace RelationGraph

/-- The identifiers of the nodes in the order of discovery. -/
def ids (g : RelationGraph) : List String := g.map (·.id)

@[simp] theorem ids_nil : ids [] = [] := rfl

@[simp] theorem ids_cons (n : RelationNode) (g : RelationGraph) :
    ids (n :: g) = n.id :: ids g := rfl

theorem mem_ids {g : RelationGraph} {id : String} : id ∈ g.ids ↔ ∃ n ∈ g, n.id = id := List.mem_map

/-- A unit with an identifier refers to the unit known by another. -/
def Refers (index : UnitIndex) (a b : String) : Prop :=
  ∃ u name, index.find? a = some u ∧ u.RefersTo index name b

/-! ## The search as a recursion -/

/-- The depth-first search visits requests in turn, each with the unit that asks for it, and finds
nodes. A request for no unit, or for one that was seen, finds nothing. Any other enters its unit
and visits what the unit refers to, in attribute order, before it comes to the next request. -/
inductive Visits (index : UnitIndex) :
    Set String → List (String × Option String) → RelationGraph → Prop
  | done {seen} : Visits index seen [] []
  | unknown {seen id parent rest nodes} (hfind : index.find? id = none)
      (hrest : Visits index seen rest nodes) : Visits index seen ((id, parent) :: rest) nodes
  | again {seen id parent rest nodes u} (hfind : index.find? id = some u) (hseen : u.id ∈ seen)
      (hrest : Visits index seen rest nodes) : Visits index seen ((id, parent) :: rest) nodes
  | enter {seen id parent rest inner after u} (hfind : index.find? id = some u)
      (hnew : u.id ∉ seen)
      (hinner : Visits index (insert u.id seen) ((u.successors index).map (·, some u.id)) inner)
      (hafter : Visits index (insert u.id seen ∪ {x | x ∈ inner.ids}) rest after) :
      Visits index seen ((id, parent) :: rest) (u.node index parent :: (inner ++ after))

/-- The search finds one list of nodes. -/
theorem Visits.unique {index : UnitIndex} {seen : Set String}
    {requests : List (String × Option String)} {g g' : RelationGraph}
    (h : Visits index seen requests g) (h' : Visits index seen requests g') : g = g' := by
  induction h generalizing g' with
  | done =>
    cases h'
    rfl
  | unknown hfind _ ih =>
    cases h' with
    | unknown _ hrest => exact ih hrest
    | again hu | enter hu =>
      rw [hfind] at hu
      cases hu
  | again hfind hseen _ ih =>
    cases h' with
    | again _ _ hrest => exact ih hrest
    | unknown hu =>
      rw [hfind] at hu
      cases hu
    | enter hu hnew =>
      rw [hfind] at hu
      cases hu
      exact absurd hseen hnew
  | enter hfind hnew _ _ ihinner ihafter =>
    cases h' with
    | unknown hu =>
      rw [hfind] at hu
      cases hu
    | again hu hseen =>
      rw [hfind] at hu
      cases hu
      exact absurd hseen hnew
    | enter hu _ hinner hafter =>
      rw [hfind] at hu
      cases hu
      obtain rfl := ihinner hinner
      rw [ihafter hafter]

section Walk

variable {index : UnitIndex} {seen : List String} {id : String} {parent : Option String}
  {stack : List (String × Option String)} {u : CaptureUnit}

/-! ## The walk, request by request -/

theorem walk_nil (index : UnitIndex) (seen : List String) : walk index seen [] = [] := by
  rw [walk]

theorem walk_unknown (h : index.find? id = none) :
    walk index seen ((id, parent) :: stack) = walk index seen stack := by
  rw [walk]
  split
  · rfl
  · next hu => rw [h] at hu; cases hu

theorem walk_again (h : index.find? id = some u) (hseen : u.id ∈ seen) :
    walk index seen ((id, parent) :: stack) = walk index seen stack := by
  rw [walk]
  split
  · rfl
  · next v hv =>
    rw [h] at hv
    cases hv
    rw [dif_pos (List.contains_iff_mem.2 hseen)]

/-- The requests of a unit for what it refers to and what was not seen. -/
def fresh (index : UnitIndex) (seen : List String) (u : CaptureUnit) :
    List (String × Option String) :=
  ((u.successors index).filter fun child => !seen.contains child).map (·, some u.id)

theorem walk_enter (h : index.find? id = some u) (hnew : u.id ∉ seen) :
    walk index seen ((id, parent) :: stack) =
      u.node index parent ::
        walk index (u.id :: seen) (fresh index (u.id :: seen) u ++ stack) := by
  rw [walk]
  split
  · next hu => rw [h] at hu; cases hu
  · next v hv =>
    rw [h] at hv
    cases hv
    rw [dif_neg (by simpa using hnew)]
    rfl

/-- A walk may be cut anywhere. -/
theorem walk_append (index : UnitIndex) (seen : List String)
    (xs ys : List (String × Option String)) :
    walk index seen (xs ++ ys) = walk index seen xs ++
      walk index ((ids (walk index seen xs)).reverse ++ seen) ys := by
  fun_induction walk index seen xs with
  | case1 seen => simp
  | case2 seen id parent xs hfind ih => rw [List.cons_append, walk_unknown hfind, ih]
  | case3 seen id parent xs u hfind hseen ih =>
    rw [List.cons_append, walk_again hfind (List.contains_iff_mem.1 hseen), ih]
  | case4 seen id parent xs u hfind hnew seen' fresh' ih =>
    rw [List.cons_append, walk_enter hfind (by simpa using hnew), List.cons_append, ids_cons,
      List.reverse_cons, List.append_assoc _ [_] seen, ← List.append_assoc (fresh _ _ u)]
    exact congrArg _ ih

/-- Requests for units seen before may be left out. -/
theorem walk_filter (keep : String → Bool) (p : Option String) {requests : List String}
    (hknown : ∀ x ∈ requests, index.Knows x)
    (hkeep : ∀ x ∈ requests, keep x = false → x ∈ seen) :
    walk index seen ((requests.filter keep).map (·, p)) =
      walk index seen (requests.map (·, p)) := by
  induction requests generalizing seen with
  | nil => rfl
  | cons x requests ih =>
    have hknown' (y : String) (hy : y ∈ requests) : index.Knows y :=
      hknown y (List.mem_cons_of_mem _ hy)
    have hkeep' (y : String) (hy : y ∈ requests) (hk : keep y = false) : y ∈ seen :=
      hkeep y (List.mem_cons_of_mem _ hy) hk
    cases hx : keep x with
    | true =>
      rw [List.filter_cons_of_pos hx, List.map_cons, List.map_cons, ← List.singleton_append,
        walk_append, ← List.singleton_append (l := requests.map _), walk_append,
        ih hknown' fun y hy hk => List.mem_append_right _ (hkeep' y hy hk)]
    | false =>
      obtain ⟨u, hu, rfl⟩ := hknown x List.mem_cons_self
      rw [List.filter_cons_of_neg (by simp [hx]), List.map_cons,
        walk_again hu (hkeep _ List.mem_cons_self hx)]
      exact ih hknown' hkeep'

/-! ## The walk is the search -/

theorem length_unseen_le {seen' : List String} (h : seen ⊆ seen') :
    (unseen index seen').length ≤ (unseen index seen).length := by
  rw [unseen, unseen, ← List.countP_eq_length_filter, ← List.countP_eq_length_filter]
  refine List.countP_mono_left fun u _ hu => ?_
  simp only [Bool.not_eq_true', List.contains_eq_mem, decide_eq_false_iff_not] at hu ⊢
  exact fun hm => hu (h hm)

theorem setOf_mem_cons (x : String) (xs : List String) :
    {y | y ∈ x :: xs} = insert x {y | y ∈ xs} := by
  ext y
  exact List.mem_cons

theorem setOf_mem_reverse_append (xs ys : List String) :
    {y | y ∈ xs.reverse ++ ys} = {y | y ∈ ys} ∪ {y | y ∈ xs} := by
  ext y
  simp [or_comm]

theorem visits_walk (hc : index.Canonical) (seen : List String)
    (stack : List (String × Option String)) :
    Visits index {x | x ∈ seen} stack (walk index seen stack) := by
  -- Entering a unit leaves fewer unseen, every other request leaves a shorter stack.
  induction hn : (unseen index seen).length using Nat.strong_induction_on
    generalizing seen stack with
  | _ n ih =>
    induction stack with
    | nil =>
      rw [walk_nil]
      exact .done
    | cons request rest ihrest =>
      obtain ⟨id, parent⟩ := request
      cases hfind : index.find? id with
      | none =>
        rw [walk_unknown hfind]
        exact .unknown hfind ihrest
      | some u =>
        rcases Decidable.em (u.id ∈ seen) with hseen | hnew
        · rw [walk_again hfind hseen]
          exact .again hfind hseen ihrest
        · have hlt : (unseen index (u.id :: seen)).length < n :=
            hn ▸ length_unseen_lt hfind (by simpa using hnew)
          let requests := (u.successors index).map (·, some u.id)
          let inner : RelationGraph := walk index (u.id :: seen) requests
          have hinner := ih _ hlt (u.id :: seen) requests rfl
          have hle : (unseen index (inner.ids.reverse ++ u.id :: seen)).length ≤
              (unseen index (u.id :: seen)).length :=
            length_unseen_le (List.subset_append_right _ _)
          have hafter := ih _ (Nat.lt_of_le_of_lt hle hlt) _ rest rfl
          have hfresh : walk index (u.id :: seen) (fresh index (u.id :: seen) u) = inner :=
            walk_filter _ _ (fun x hx => CaptureUnit.knows_of_mem_successors hc hx)
              fun x _ hx => by simpa [or_iff_not_imp_left] using hx
          rw [setOf_mem_cons] at hinner
          rw [setOf_mem_reverse_append, setOf_mem_cons] at hafter
          rw [walk_enter hfind hnew, walk_append, hfresh]
          exact .enter hfind hnew hinner hafter

/-! ## What a walk finds -/

theorem not_mem_seen {n : RelationNode} (h : n ∈ walk index seen stack) : n.id ∉ seen := by
  fun_induction walk index seen stack with
  | case1 => cases h
  | case2 _ _ _ _ _ ih => exact ih h
  | case3 _ _ _ _ _ _ _ ih => exact ih h
  | case4 seen id parent stack u hfind hnew seen' fresh' ih =>
    intro hmem
    rcases List.mem_cons.1 h with rfl | h
    · exact hnew (List.contains_iff_mem.2 hmem)
    · exact ih h (List.mem_cons_of_mem _ hmem)

theorem nodup_ids (index : UnitIndex) (seen : List String)
    (stack : List (String × Option String)) : (ids (walk index seen stack)).Nodup := by
  fun_induction walk index seen stack with
  | case1 => exact List.nodup_nil
  | case2 _ _ _ _ _ ih => exact ih
  | case3 _ _ _ _ _ _ _ ih => exact ih
  | case4 seen id parent stack u hfind hnew seen' fresh' ih =>
    refine List.nodup_cons.2 ⟨fun hmem => ?_, ih⟩
    obtain ⟨n, hn, hid⟩ := mem_ids.1 hmem
    exact not_mem_seen hn (hid ▸ List.mem_cons_self)

/-- All requests ask for units by the identifiers they are known by. -/
def KnownRequests (index : UnitIndex) (stack : List (String × Option String)) : Prop :=
  ∀ r ∈ stack, index.Knows r.1

theorem KnownRequests.tail {r : String × Option String} (h : KnownRequests index (r :: stack)) :
    KnownRequests index stack := fun x hx => h x (List.mem_cons_of_mem _ hx)

theorem KnownRequests.fresh_append (h : KnownRequests index stack) (hc : index.Canonical)
    (seen : List String) (u : CaptureUnit) : KnownRequests index (fresh index seen u ++ stack) := by
  intro r hr
  rcases List.mem_append.1 hr with hr | hr
  · obtain ⟨x, hx, rfl⟩ := List.mem_map.1 hr
    exact CaptureUnit.knows_of_mem_successors hc (List.mem_filter.1 hx).1
  · exact h r hr

theorem exists_unit (hc : index.Canonical) (hstack : KnownRequests index stack)
    {n : RelationNode} (h : n ∈ walk index seen stack) :
    ∃ u parent, index.find? n.id = some u ∧ n = u.node index parent := by
  fun_induction walk index seen stack with
  | case1 => cases h
  | case2 _ _ _ _ _ ih => exact ih hstack.tail h
  | case3 _ _ _ _ _ _ _ ih => exact ih hstack.tail h
  | case4 seen id parent stack u hfind hnew seen' fresh' ih =>
    rcases List.mem_cons.1 h with rfl | h
    · obtain rfl := UnitIndex.id_of_knows (hstack _ List.mem_cons_self) hfind
      exact ⟨u, parent, hfind, rfl⟩
    · exact ih (hstack.tail.fresh_append hc _ u) h

/-- What is found can be reached from what was asked for, past nothing that was seen before. -/
theorem exists_request (hc : index.Canonical) (hstack : KnownRequests index stack)
    {n : RelationNode} (h : n ∈ walk index seen stack) :
    ∃ r ∈ stack, ReflTransGen (fun a b => a ∉ seen ∧ Refers index a b) r.1 n.id := by
  fun_induction walk index seen stack with
  | case1 => cases h
  | case2 _ _ _ _ _ ih =>
    obtain ⟨r, hr, hreach⟩ := ih hstack.tail h
    exact ⟨r, List.mem_cons_of_mem _ hr, hreach⟩
  | case3 _ _ _ _ _ _ _ ih =>
    obtain ⟨r, hr, hreach⟩ := ih hstack.tail h
    exact ⟨r, List.mem_cons_of_mem _ hr, hreach⟩
  | case4 seen id parent stack u hfind hnew seen' fresh' ih =>
    have hid : u.id = id := UnitIndex.id_of_knows (hstack _ List.mem_cons_self) hfind
    rcases List.mem_cons.1 h with rfl | h
    · exact ⟨(id, parent), List.mem_cons_self, hid ▸ .refl⟩
    · obtain ⟨r, hr, hreach⟩ := ih (hstack.tail.fresh_append hc _ u) h
      have hreach : ReflTransGen (fun a b => a ∉ seen ∧ Refers index a b) r.1 n.id :=
        ReflTransGen.mono (fun _ _ hab => ⟨fun hs => hab.1 (List.mem_cons_of_mem _ hs), hab.2⟩)
          _ _ hreach
      rcases List.mem_append.1 hr with hr | hr
      · obtain ⟨x, hx, rfl⟩ := List.mem_map.1 hr
        obtain ⟨name, hname⟩ := CaptureUnit.mem_successors.1 (List.mem_filter.1 hx).1
        have hout : id ∉ seen := hid ▸ by simpa using hnew
        exact ⟨(id, parent), List.mem_cons_self, .head ⟨hout, u, name, hfind, hname⟩ hreach⟩
      · exact ⟨r, List.mem_cons_of_mem _ hr, hreach⟩

/-- A walk knows an identifier when it saw it before or finds it. -/
def Met (index : UnitIndex) (seen : List String) (stack : List (String × Option String))
    (id : String) : Prop := id ∈ seen ∨ id ∈ ids (walk index seen stack)

theorem met_enter (h : index.find? id = some u) (hnew : u.id ∉ seen) {x : String}
    (hx : Met index (u.id :: seen) (fresh index (u.id :: seen) u ++ stack) x) :
    Met index seen ((id, parent) :: stack) x := by
  rw [Met, walk_enter h hnew, ids_cons]
  rcases hx with hx | hx
  · rcases List.mem_cons.1 hx with rfl | hx
    · exact .inr List.mem_cons_self
    · exact .inl hx
  · exact .inr (List.mem_cons_of_mem _ hx)

theorem met_request {r : String × Option String} (hr : r ∈ stack)
    (hu : index.find? r.1 = some u) : Met index seen stack u.id := by
  fun_induction walk index seen stack with
  | case1 => cases hr
  | case2 seen id parent stack hfind ih =>
    rw [Met, walk_unknown hfind]
    rcases List.mem_cons.1 hr with rfl | hr
    · rw [hfind] at hu
      cases hu
    · exact ih hr
  | case3 seen id parent stack v hfind hseen ih =>
    rw [Met, walk_again hfind (List.contains_iff_mem.1 hseen)]
    rcases List.mem_cons.1 hr with rfl | hr
    · rw [hfind] at hu
      cases hu
      exact .inl (List.contains_iff_mem.1 hseen)
    · exact ih hr
  | case4 seen id parent stack v hfind hnew seen' fresh' ih =>
    refine met_enter hfind (by simpa using hnew) ?_
    rcases List.mem_cons.1 hr with rfl | hr
    · rw [hfind] at hu
      cases hu
      exact .inl List.mem_cons_self
    · exact ih (List.mem_append_right _ hr)

/-- What a node refers to is met. -/
theorem met_children (hc : index.Canonical) {n : RelationNode} (hn : n ∈ walk index seen stack)
    {x : String} (hx : x ∈ n.children) : Met index seen stack x := by
  fun_induction walk index seen stack with
  | case1 => cases hn
  | case2 seen id parent stack hfind ih =>
    rw [Met, walk_unknown hfind]
    exact ih hn
  | case3 seen id parent stack u hfind hseen ih =>
    rw [Met, walk_again hfind (List.contains_iff_mem.1 hseen)]
    exact ih hn
  | case4 seen id parent stack u hfind hnew seen' fresh' ih =>
    refine met_enter hfind (by simpa using hnew) ?_
    rcases List.mem_cons.1 hn with rfl | hn
    · obtain ⟨v, hv, rfl⟩ := CaptureUnit.knows_of_mem_successors hc hx
      rcases Decidable.em (v.id ∈ seen') with hseen | hfresh
      · exact .inl hseen
      · refine met_request (r := (v.id, some u.id)) (List.mem_append_left _ ?_) hv
        exact List.mem_map_of_mem (List.mem_filter.2 ⟨hx, by simpa [seen'] using hfresh⟩)
    · exact ih hn

end Walk

/-! ## The graph of a unit -/

section Extract

variable {index : UnitIndex} {root : String} {u : CaptureUnit} {n : RelationNode} {id : String}

theorem extract_unknown (h : index.find? root = none) : extract index root = [] := by
  rw [extract, walk_unknown h, walk_nil]

theorem visits_extract (hc : index.Canonical) (root : String) :
    Visits index ∅ [(root, none)] (extract index root) := by
  have hempty : {x : String | x ∈ ([] : List String)} = ∅ := by ext x; simp
  exact hempty ▸ visits_walk hc [] [(root, none)]

theorem knownRequests_root (h : index.Knows root) : KnownRequests index [(root, none)] :=
  fun _ hr => List.mem_singleton.1 hr ▸ h

/-- The unit that an identifier stands for in the graph of a root: the root under its own. -/
def unitIn? (index : UnitIndex) (root : CaptureUnit) (id : String) : Option CaptureUnit :=
  if id = root.id then some root else index.find? id

/-- In the graph of a root, the unit of an identifier refers to that of another. -/
def RefersIn (index : UnitIndex) (root : CaptureUnit) (a b : String) : Prop :=
  ∃ u name, unitIn? index root a = some u ∧ u.RefersTo index name b

theorem refersIn_eq (h : index.find? u.id = some u) : RefersIn index u = Refers index := by
  have hunit (id : String) : unitIn? index u id = index.find? id := by
    unfold unitIn?
    split
    · next hid => rw [hid, h]
    · rfl
  funext a b
  simp only [RefersIn, Refers, hunit]

theorem extract_eq_cons (h : index.find? root = some u) :
    extract index root = u.node index none :: walk index [u.id] (fresh index [u.id] u) := by
  rw [extract, walk_enter h List.not_mem_nil, List.append_nil]

theorem knownRequests_fresh (hc : index.Canonical) (seen : List String) (u : CaptureUnit) :
    KnownRequests index (fresh index seen u) := by
  have hnil : KnownRequests index [] := List.forall_mem_nil _
  simpa using hnil.fresh_append hc seen u

/-- A node is that of the unit its identifier stands for. -/
theorem exists_unitIn (hc : index.Canonical) (h : index.find? root = some u)
    (hn : n ∈ extract index root) :
    ∃ v parent, unitIn? index u n.id = some v ∧ n = v.node index parent := by
  rw [extract_eq_cons h] at hn
  rcases List.mem_cons.1 hn with rfl | hn
  · exact ⟨u, none, if_pos rfl, rfl⟩
  · obtain ⟨v, parent, hv, hnode⟩ := exists_unit hc (knownRequests_fresh hc [u.id] u) hn
    have hne : n.id ≠ u.id := fun hid => not_mem_seen hn (List.mem_singleton.2 hid)
    exact ⟨v, parent, (if_neg hne).trans hv, hnode⟩

/-- What a node refers to has a node. -/
theorem mem_ids_of_mem_children (hc : index.Canonical) (hn : n ∈ extract index root)
    (hid : id ∈ n.children) : id ∈ (extract index root).ids :=
  (met_children hc hn hid).resolve_left List.not_mem_nil

theorem mem_ids_extract_iff (hc : index.Canonical) (h : index.find? root = some u) :
    id ∈ (extract index root).ids ↔ ReflTransGen (RefersIn index u) u.id id := by
  constructor
  · rw [extract_eq_cons h]
    intro hmem
    rcases List.mem_cons.1 hmem with rfl | hmem
    · exact .refl
    · obtain ⟨n, hn, rfl⟩ := mem_ids.1 hmem
      obtain ⟨r, hr, hreach⟩ := exists_request hc (knownRequests_fresh hc [u.id] u) hn
      obtain ⟨x, hx, rfl⟩ := List.mem_map.1 hr
      obtain ⟨name, hname⟩ := CaptureUnit.mem_successors.1 (List.mem_filter.1 hx).1
      refine .head ⟨u, name, if_pos rfl, hname⟩ (ReflTransGen.mono ?_ _ _ hreach)
      rintro a b ⟨hnew, v, name, hv, hname⟩
      exact ⟨v, name, (if_neg fun ha => hnew (List.mem_singleton.2 ha)).trans hv, hname⟩
  · intro hreach
    induction hreach with
    | refl =>
      rw [extract_eq_cons h]
      exact List.mem_cons_self
    | tail _ hrefers ih =>
      obtain ⟨n, hn, rfl⟩ := mem_ids.1 ih
      obtain ⟨v, parent, hv, hnode⟩ := exists_unitIn hc h hn
      obtain ⟨w, name, hw, hname⟩ := hrefers
      rw [hv] at hw
      cases hw
      refine mem_ids_of_mem_children hc hn ?_
      rw [hnode]
      exact CaptureUnit.mem_successors.2 ⟨name, hname⟩

/-- The graph of a unit found under its own identifier holds exactly the units that can be reached
from it. -/
theorem mem_ids_extract (hc : index.Canonical) (hroot : index.Knows root) :
    id ∈ (extract index root).ids ↔ ReflTransGen (Refers index) root id := by
  obtain ⟨u, hu, rfl⟩ := hroot
  rw [mem_ids_extract_iff hc hu, refersIn_eq hu]

end Extract

end RelationGraph
end Questionnaire
