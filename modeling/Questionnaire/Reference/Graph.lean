import Questionnaire.Reference.Index
import Questionnaire.Reference.Target
import Questionnaire.Warning

/-
  The units that can be reached from one unit through references.

  The walk goes depth first: a stack holds the units still to be visited, each with the unit that
  leads to it, and a unit that comes up a second time is passed over. It ends because every visit
  uses up a unit that was not seen before and everything else shortens the stack.
-/

namespace Questionnaire

/-- A unit in the reference graph. -/
structure RelationNode where
  id : String
  /-- The unit through which this one was first reached. -/
  parent : Option String
  /-- The referenced units in attribute order, each once. -/
  children : List String
  /-- The names of the attributes in order of declaration. -/
  fields : List String
  /-- The unit that each reference attribute leads to. -/
  references : SortedMap String
deriving DecidableEq

/-- Whether the unit refers to any other. -/
def RelationNode.isParent (n : RelationNode) : Bool := !n.children.isEmpty

namespace CaptureUnit

/-- The attributes that refer to a unit, with the identifiers that they name. -/
def declaredTargets (u : CaptureUnit) : List (String × String) :=
  u.captureBase.attributes.filterMap fun a => (referenceTarget? a.2).map (a.1, ·)

/-- The attributes that lead to a known unit, with the identifiers of those units. -/
def links (index : UnitIndex) (u : CaptureUnit) : List (String × String) :=
  u.declaredTargets.filterMap fun a => (index.canonicalId? a.2).map (a.1, ·)

/-- The units that a unit leads to, each once, in attribute order. -/
def successors (index : UnitIndex) (u : CaptureUnit) : List String :=
  ((u.links index).map (·.2)).eraseDups

/-- The node of a unit that was reached through `parent`. -/
def node (index : UnitIndex) (parent : Option String) (u : CaptureUnit) : RelationNode where
  id := u.id
  parent
  children := u.successors index
  fields := u.captureBase.attributes.map (·.1)
  references := SortedMap.ofList (u.links index)

end CaptureUnit

/-- The reference graph of a unit: its nodes in the order of discovery. -/
abbrev RelationGraph := List RelationNode

namespace RelationGraph

/-- The units that were not seen yet. -/
def unseen (index : UnitIndex) (seen : List String) : List CaptureUnit :=
  index.units.filter fun u => !seen.contains u.id

theorem length_filter_lt {α : Type} {p q : α → Bool} (hpq : ∀ a, p a → q a) {b : α}
    (hq : q b) (hp : ¬ p b) : ∀ {l : List α}, b ∈ l → (l.filter p).length < (l.filter q).length
  | a :: l, hmem => by
    have hle : (l.filter p).length ≤ (l.filter q).length := by
      simp only [← List.countP_eq_length_filter]
      exact List.countP_mono_left fun a _ => hpq a
    rcases List.mem_cons.1 hmem with rfl | hmem
    · rw [List.filter_cons_of_neg hp, List.filter_cons_of_pos hq, List.length_cons]
      omega
    · have hlt := length_filter_lt hpq hq hp hmem
      by_cases hpa : p a
      · rw [List.filter_cons_of_pos hpa, List.filter_cons_of_pos (hpq a hpa)]
        simpa using hlt
      · rw [List.filter_cons_of_neg hpa]
        exact Nat.lt_of_lt_of_le hlt (List.Sublist.length_le (List.Sublist.filter q (by simp)))

theorem length_unseen_lt {index : UnitIndex} {seen : List String} {id : String} {u : CaptureUnit}
    (hfind : index.find? id = some u) (hnew : ¬ seen.contains u.id) :
    (unseen index (u.id :: seen)).length < (unseen index seen).length :=
  length_filter_lt (by simp_all) (by simp_all) (by simp) (UnitIndex.mem_units_of_find? hfind)

/-- The nodes found from a stack of units to visit, with the units already seen. -/
def walk (index : UnitIndex) (seen : List String) :
    List (String × Option String) → List RelationNode
  | [] => []
  | (id, parent) :: stack =>
    match _ : index.find? id with
    | none => walk index seen stack
    | some u =>
      if _ : seen.contains u.id then walk index seen stack
      else
        let seen := u.id :: seen
        let fresh := (u.successors index).filter fun child => !seen.contains child
        u.node index parent :: walk index seen (fresh.map (·, some u.id) ++ stack)
termination_by stack => ((unseen index seen).length, stack.length)
decreasing_by
  · exact Prod.Lex.right _ (by simp)
  · exact Prod.Lex.right _ (by simp)
  · exact Prod.Lex.left _ _ (length_unseen_lt ‹_› ‹_›)

/-- The reference graph of the unit of an identifier; empty when there is no such unit. -/
def extract (index : UnitIndex) (root : String) : RelationGraph :=
  walk index [] [(root, none)]

/-- The node of a unit. -/
def get? (g : RelationGraph) (id : String) : Option RelationNode := List.find? (·.id = id) g

/-- The warnings about references of a unit that lead nowhere. -/
def danglingWarnings (index : UnitIndex) (u : CaptureUnit) : List Warning :=
  u.declaredTargets.filterMap fun a =>
    if (index.find? a.2).isNone then some (.danglingAttribute a.1 u.id (.entityNotFound a.2))
    else none

/-- The warnings of walking the graph of a unit. Beyond the root every unit is found again under
its own identifier. -/
def extractWarnings (index : UnitIndex) (root : String) : List Warning :=
  match index.find? root with
  | none => [.skippedUnit (.entityNotFound root)]
  | some u =>
    (extract index root).flatMap fun n =>
      danglingWarnings index (if n.id = u.id then u else (index.find? n.id).getD u)

end RelationGraph
end Questionnaire
