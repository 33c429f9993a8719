import Questionnaire.Error
import Questionnaire.Package.Basic

/-
  Finding capture units by identifier.

  The main unit answers to the digest of its capture base, a dependency to the digest of its
  capture base or else to its own digest. Where several units share an identifier, the main unit
  comes first, then the capture bases of the dependencies in order, then their own digests in
  order. The index is built once for a bundle.
-/

namespace Questionnaire

/-- The units of a bundle by identifier. -/
structure UnitIndex where
  main : CaptureUnit
  byCaptureBase : SortedMap CaptureUnit
  byDigest : SortedMap CaptureUnit

namespace UnitIndex

/-- The map with a unit under a key that is still free. -/
def insertFirst (m : SortedMap CaptureUnit) (key : String) (u : CaptureUnit) :
    SortedMap CaptureUnit :=
  if m.contains key then m else m.insert key u

/-- Indexes a main unit and its dependencies. -/
def build (main : CaptureUnit) (dependencies : List CaptureUnit) : UnitIndex where
  main
  byCaptureBase := dependencies.foldl (fun m u => insertFirst m u.id u) ∅
  byDigest := dependencies.foldl (fun m u => insertFirst m u.digest u) ∅

/-- Indexes a bundle. -/
def ofBundle (b : Bundle) : UnitIndex := build b.main b.dependencies

/-- The unit of an identifier, if there is one. -/
def find? (index : UnitIndex) (id : String) : Option CaptureUnit :=
  if index.main.id = id then some index.main
  else (index.byCaptureBase.get? id).or (index.byDigest.get? id)

/-- The unit of an identifier. -/
def resolve (index : UnitIndex) (id : String) : Except FormError CaptureUnit :=
  match index.find? id with
  | some u => .ok u
  | none => .error (.entityNotFound id)

/-- The identifier under which the unit of any identifier is known. -/
def canonicalId (index : UnitIndex) (id : String) : Except FormError String :=
  (index.resolve id).map (·.id)

/-- The identifier under which a unit is known, if it is found. -/
def canonicalId? (index : UnitIndex) (id : String) : Option String := (index.find? id).map (·.id)

/-- All units of the index. -/
def units (index : UnitIndex) : List CaptureUnit :=
  index.main :: (index.byCaptureBase.values ++ index.byDigest.values)

theorem mem_units_of_find? {index : UnitIndex} {id : String} {u : CaptureUnit}
    (h : index.find? id = some u) : u ∈ index.units := by
  unfold find? at h
  split at h
  · simp_all [units]
  · rcases Option.or_eq_some_iff.1 h with h | ⟨-, h⟩
    · have := SortedMap.mem_entries_of_get? h
      simp only [units, SortedMap.values, List.mem_cons, List.mem_append, List.mem_map]
      exact .inr (.inl ⟨_, this, rfl⟩)
    · have := SortedMap.mem_entries_of_get? h
      simp only [units, SortedMap.values, List.mem_cons, List.mem_append, List.mem_map]
      exact .inr (.inr ⟨_, this, rfl⟩)

end UnitIndex
end Questionnaire
