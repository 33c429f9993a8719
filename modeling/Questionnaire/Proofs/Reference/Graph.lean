import Mathlib
import Questionnaire.Proofs.Reference.DepthFirst

/-
  What the nodes of a reference graph say about each other.

  A graph is what the recursive depth-first search finds (`extract_eq_iff_visits`). It starts with
  the unit that its root leads to (`extract_eq_cons`). Every later node was asked for by an earlier
  one, which is its parent (`parentBefore_extract`), and a node lists what its attributes lead to
  (`CaptureUnit.successors_eq`). All that can be reached has a node, but the root stands for itself
  under the identifier it is known by: another unit of that identifier counts as seen, and what
  only that one refers to is left out (`namesake_not_followed`).
-/

namespace Questionnaire

open Relation

/-! ## The references of a node -/

namespace CaptureUnit

variable {index : UnitIndex} {u : CaptureUnit} {name id : String}

/-- Where attributes are declared once, the map of a node's references holds just them. -/
theorem get?_links_iff (hnames : (u.captureBase.attributes.map (·.1)).Nodup) :
    (SortedMap.ofList (u.links index)).get? name = some id ↔ u.RefersTo index name id := by
  refine ⟨refersTo_of_get?, fun h => ?_⟩
  obtain ⟨id', hid'⟩ := exists_get?_of_refersTo h
  rw [hid', RefersTo.unique hnames h (refersTo_of_get? hid')]

/-- The units that attributes lead to, in the order of the attributes. -/
theorem map_links (index : UnitIndex) (u : CaptureUnit) :
    (u.links index).map (·.2) =
      u.captureBase.attributes.filterMap fun a =>
        (referenceTarget? a.2).bind index.canonicalId? := by
  rw [links, declaredTargets, List.filterMap_filterMap, List.map_filterMap]
  refine List.filterMap_congr fun a _ => ?_
  cases referenceTarget? a.2 with
  | none => rfl
  | some named => cases h : index.canonicalId? named <;> simp [h]

theorem successors_eq (hnames : (u.captureBase.attributes.map (·.1)).Nodup) :
    u.successors index = ((u.captureBase.attributes.map (·.1)).filterMap
      (SortedMap.ofList (u.links index)).get?).eraseDups := by
  rw [successors, map_links, List.filterMap_map]
  congr 1
  refine List.filterMap_congr fun a ha => ?_
  ext id
  rw [Function.comp_apply, ← Option.mem_def, ← Option.mem_def, Option.mem_def, Option.mem_def,
    get?_links_iff hnames, Option.bind_eq_some_iff]
  constructor
  · rintro ⟨named, hnamed, hid⟩
    exact ⟨a.2, named, ha, hnamed, hid⟩
  · rintro ⟨declared, named, hmem, hnamed, hid⟩
    have heq : (a.1, declared) = a := List.inj_on_of_nodup_map hnames hmem ha rfl
    exact ⟨named, heq ▸ hnamed, hid⟩

end CaptureUnit

namespace RelationGraph

section Walk

variable {index : UnitIndex} {seen : List String} {stack : List (String × Option String)}

/-! ## Who asked for a node -/

/-- A node of a graph has its parent before it, and the parent refers to it. -/
def ParentBefore (g : RelationGraph) (n : RelationNode) : Prop :=
  ∃ before after, g = before ++ n :: after ∧
    ∃ m ∈ before, n.parent = some m.id ∧ n.id ∈ m.children

theorem ParentBefore.cons {g : RelationGraph} {n : RelationNode} (h : ParentBefore g n)
    (m : RelationNode) : ParentBefore (m :: g) n := by
  obtain ⟨before, after, rfl, parent, hparent, hlink⟩ := h
  exact ⟨m :: before, after, rfl, parent, List.mem_cons_of_mem _ hparent, hlink⟩

/-- What a unit asks for comes after its node. -/
theorem parentBefore_of_mem_fresh {g : RelationGraph} {n : RelationNode} {u : CaptureUnit}
    (hn : n ∈ g) (hasked : (n.id, n.parent) ∈ fresh index seen u) (parent : Option String) :
    ParentBefore (u.node index parent :: g) n := by
  obtain ⟨before, after, rfl⟩ := List.append_of_mem hn
  obtain ⟨x, hx, heq⟩ := List.mem_map.1 hasked
  obtain ⟨rfl, hparent⟩ := Prod.mk.inj heq
  exact ⟨_ :: before, after, rfl, _, List.mem_cons_self, hparent.symm, (List.mem_filter.1 hx).1⟩

/-- What is found was on the stack, or else a node found before asked for it. -/
theorem mem_stack_or_parentBefore (hc : index.Canonical) (hstack : KnownRequests index stack)
    {n : RelationNode} (h : n ∈ walk index seen stack) :
    (n.id, n.parent) ∈ stack ∨ ParentBefore (walk index seen stack) n := by
  fun_induction walk index seen stack with
  | case1 => cases h
  | case2 _ _ _ _ _ ih => exact (ih hstack.tail h).imp_left (List.mem_cons_of_mem _)
  | case3 _ _ _ _ _ _ _ ih => exact (ih hstack.tail h).imp_left (List.mem_cons_of_mem _)
  | case4 seen id parent stack u hfind hnew seen' fresh' ih =>
    rcases List.mem_cons.1 h with rfl | h
    · have hid : u.id = id := UnitIndex.id_of_knows (hstack _ List.mem_cons_self) hfind
      exact .inl (hid ▸ List.mem_cons_self)
    · rcases ih (hstack.tail.fresh_append hc _ u) h with hasked | hparent
      · rcases List.mem_append.1 hasked with hasked | hasked
        · exact .inr (parentBefore_of_mem_fresh h hasked parent)
        · exact .inl (List.mem_cons_of_mem _ hasked)
      · exact .inr (hparent.cons _)

end Walk

/-! ## The graph of a root -/

/-- The graph of an identifier is what the recursive depth-first search finds, and the search finds
nothing else: the same units in the same order, each with the unit whose visit entered it. -/
theorem extract_eq_iff_visits (main : CaptureUnit) (dependencies : List CaptureUnit) (root : String)
    (g : RelationGraph) :
    extract (UnitIndex.build main dependencies) root = g ↔
      Visits (UnitIndex.build main dependencies) ∅ [(root, none)] g := by
  have hvisits := visits_extract (UnitIndex.canonical_build main dependencies) root
  exact ⟨fun h => h ▸ hvisits, hvisits.unique⟩

/-- Firms wait on the stack for works when persons, which works refer to first, come to them. -/
example :
    (extract (UnitIndex.build
      { captureBase := {
        digest := "work"
        attributes := [("author", .text "refs:person"), ("publisher", .text "refs:firm")] } } [
      { captureBase := { digest := "person", attributes := [("employer", .text "refs:firm")] } },
      { captureBase := { digest := "firm", attributes := [("owner", .text "refs:person")] } }])
      "work").map (fun n => (n.id, n.parent)) =
      [("work", none), ("person", some "work"), ("firm", some "person")] := by
  cbv

section Extract

variable {index : UnitIndex} {root : String} {u : CaptureUnit} {n : RelationNode} {id : String}

/-- Every node but that of the root has its parent before it. -/
theorem parentBefore_extract (hc : index.Canonical) (h : index.find? root = some u)
    (hn : n ∈ extract index root) (hne : n.id ≠ u.id) : ParentBefore (extract index root) n := by
  rw [extract_eq_cons h] at hn ⊢
  rcases List.mem_cons.1 hn with rfl | hn
  · exact absurd rfl hne
  · rcases mem_stack_or_parentBefore hc (knownRequests_fresh hc [u.id] u) hn with hasked | hparent
    · exact parentBefore_of_mem_fresh hn hasked none
    · exact hparent.cons _

end Extract

/-- No more units are visited than there are. -/
theorem length_extract_le (main : CaptureUnit) (dependencies : List CaptureUnit) (root : String) :
    (extract (UnitIndex.build main dependencies) root).length ≤ dependencies.length + 1 := by
  let index := UnitIndex.build main dependencies
  have hsub : (extract index root).ids ⊆ (main :: dependencies).map (·.id) := by
    intro id hid
    obtain ⟨n, hn, rfl⟩ := mem_ids.1 hid
    cases hroot : index.find? root with
    | none =>
      rw [extract_unknown hroot] at hn
      cases hn
    | some u =>
      obtain ⟨v, parent, hv, hnode⟩ :=
        exists_unitIn (UnitIndex.canonical_build main dependencies) hroot hn
      refine List.mem_map.2 ⟨v, ?_, by rw [hnode]; rfl⟩
      unfold unitIn? at hv
      split at hv
      · cases hv
        exact UnitIndex.mem_of_find? hroot
      · exact UnitIndex.mem_of_find? hv
  have hnodup : (extract index root).ids.Nodup := nodup_ids index [] [(root, none)]
  have hle := (List.subperm_of_subset hnodup hsub).length_le
  rwa [ids, List.length_map, List.length_map, List.length_cons] at hle

/-- The reference graph of an identifier visits no unit twice and no more units than there are. It
is empty when the identifier is unknown. Else it starts with the unit that the identifier leads to,
holds exactly the units that can be reached from it, and has before every other node its parent,
which refers to it. The root stands for itself throughout, even if another unit is found under the
identifier it is known by. A node's children are what its attributes lead to, in order and each
once, and have nodes themselves. -/
theorem extract_holds_reachable (main : CaptureUnit) (dependencies : List CaptureUnit)
    (root : String) :
    let index := UnitIndex.build main dependencies
    let g := extract index root
    g.ids.Nodup ∧ g.length ≤ dependencies.length + 1 ∧ (index.find? root = none → g = []) ∧
    ∀ u, index.find? root = some u →
      (∀ id, id ∈ g.ids ↔ ReflTransGen (RefersIn index u) u.id id) ∧
      (index.find? u.id = some u → RefersIn index u = Refers index) ∧
      (∃ rest, g = u.node index none :: rest) ∧
      (∀ n ∈ g, n.id ≠ u.id → ParentBefore g n) ∧
      ∀ n ∈ g,
        (∃ v, unitIn? index u n.id = some v ∧ n.fields = v.captureBase.attributes.map (·.1) ∧
          (n.fields.Nodup → ∀ name id,
            n.references.get? name = some id ↔ v.RefersTo index name id)) ∧
        (n.fields.Nodup → n.children = (n.fields.filterMap n.references.get?).eraseDups) ∧
        (∀ id ∈ n.children, id ∈ g.ids) ∧
        ∀ name id, n.references.get? name = some id → id ∈ g.ids := by
  intro index g
  have hc : index.Canonical := UnitIndex.canonical_build main dependencies
  refine ⟨nodup_ids index [] [(root, none)], length_extract_le main dependencies root,
    extract_unknown, fun u hu => ⟨fun id => mem_ids_extract_iff hc hu, refersIn_eq,
      ⟨_, extract_eq_cons hu⟩, fun n hn => parentBefore_extract hc hu hn, fun n hn => ?_⟩⟩
  obtain ⟨v, parent, hv, hnode⟩ := exists_unitIn hc hu hn
  refine ⟨⟨v, hv, by rw [hnode]; rfl, fun hnames name id => ?_⟩, fun hnames => ?_,
    fun id hid => mem_ids_of_mem_children hc hn hid, fun name id hid => ?_⟩
  · rw [hnode] at hnames ⊢
    exact CaptureUnit.get?_links_iff hnames
  · rw [hnode] at hnames ⊢
    exact CaptureUnit.successors_eq hnames
  · refine mem_ids_of_mem_children hc hn ?_
    rw [hnode] at hid ⊢
    exact CaptureUnit.mem_successors.2 ⟨name, CaptureUnit.refersTo_of_get? hid⟩

/-- Works that lead to persons, and two units of persons. Only the second, found by its own digest,
leads to works, and only the first leads to firms. -/
def namesakeIndex : UnitIndex :=
  UnitIndex.build
    { captureBase := { digest := "work", attributes := [("author", .text "refs:person")] } } [
    { digest := "first"
      captureBase := { digest := "person", attributes := [("employer", .text "refs:firm")] } },
    { digest := "second"
      captureBase := { digest := "person", attributes := [("work", .text "refs:work")] } },
    { captureBase := { digest := "firm", attributes := [("name", .text "Text")] } }]

theorem refers_of_links {index : UnitIndex} {a b : String} (name : String)
    (h : (index.find? a).map (·.links index) = some [(name, b)]) : Refers index a b := by
  obtain ⟨u, hu, hlinks⟩ := Option.map_eq_some_iff.1 h
  exact ⟨u, name, hu, CaptureUnit.mem_links.1 (hlinks ▸ List.mem_singleton_self _)⟩

/-- From the second unit works can be reached, from these the first unit, and from it firms. But the
first unit is known by the identifier of the second, which was seen. -/
theorem namesake_not_followed :
    namesakeIndex.canonicalId? "second" = some "person" ∧
      ReflTransGen (Refers namesakeIndex) "second" "firm" ∧
      ReflTransGen (Refers namesakeIndex) "person" "firm" ∧
      (extract namesakeIndex "second").ids = ["person", "work"] := by
  have hwork : Refers namesakeIndex "second" "work" := refers_of_links "work" (by cbv)
  have hperson : Refers namesakeIndex "work" "person" := refers_of_links "author" (by cbv)
  have hfirm : Refers namesakeIndex "person" "firm" := refers_of_links "employer" (by cbv)
  exact ⟨by cbv, .head hwork (.head hperson (.single hfirm)), .single hfirm, by cbv⟩

end RelationGraph
end Questionnaire
