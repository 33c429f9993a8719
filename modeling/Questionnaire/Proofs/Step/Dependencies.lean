import Mathlib.Data.List.Find
import Mathlib.Data.List.Nodup
import Questionnaire.Form.Basic
import Questionnaire.Proofs.Reference.Index

/-
  The order of dependencies does not matter.

  Where several dependencies share an identifier the first one is found. When no two share the
  digest of their capture base, and no two their own digest, there is nothing to choose, and lists
  that hold the same dependencies have the same index (`build_of_perm`). All that a form takes from
  the dependencies it takes from the index (`compile_of_perm`).
-/

namespace Questionnaire

/-- Look-ups by a key that tells the entries apart do not depend on their order. -/
theorem find?_of_perm {α β : Type} [DecidableEq β] {key : α → β} {xs ys : List α} (h : xs.Perm ys)
    (hkeys : (xs.map key).Nodup) (k : β) : xs.find? (key · = k) = ys.find? (key · = k) := by
  refine List.find?_eq_find?_of_perm h fun x hx y hy => ?_
  have hkey : key x = key y :=
    (of_decide_eq_true hx.2).trans (of_decide_eq_true hy.2).symm
  exact List.inj_on_of_nodup_map hkeys hx.1 hy.1 hkey

namespace UnitIndex

/-- Lists that hold the same dependencies have the same index. -/
theorem build_of_perm {main : CaptureUnit} {dependencies dependencies' : List CaptureUnit}
    (h : dependencies.Perm dependencies') (hids : (dependencies.map (·.id)).Nodup)
    (hdigests : (dependencies.map (·.digest)).Nodup) :
    build main dependencies = build main dependencies' := by
  have hget (key : CaptureUnit → String) (hkeys : (dependencies.map key).Nodup) :
      dependencies.foldl (fun m u => insertFirst m (key u) u) ∅ =
        dependencies'.foldl (fun m u => insertFirst m (key u) u) ∅ := by
    refine SortedMap.ext_get? fun k => ?_
    rw [get?_foldl_insertFirst, get?_foldl_insertFirst, find?_of_perm h hkeys k]
  rw [build, build, hget (·.id) hids, hget (·.digest) hdigests]

end UnitIndex

/-- All that a package takes from its dependencies to make steps is their index. -/
theorem Package.compilation_of_perm {p : Package} {dependencies : List CaptureUnit}
    (h : dependencies.Perm p.bundle.dependencies)
    (hids : (p.bundle.dependencies.map (·.id)).Nodup)
    (hdigests : (p.bundle.dependencies.map (·.digest)).Nodup) :
    ({ p with bundle := { p.bundle with dependencies } } : Package).compilation =
      p.compilation := by
  have hindex : UnitIndex.ofBundle { p.bundle with dependencies } = UnitIndex.ofBundle p.bundle :=
    (UnitIndex.build_of_perm h.symm hids hdigests).symm
  simp only [Package.compilation, Package.described, hindex]
  rfl

namespace Form

/-- When no two dependencies share the digest of their capture base and no two their own digest, a
package compiles to the same form in whatever order they are listed. -/
theorem compile_of_perm {p : Package} {dependencies : List CaptureUnit}
    (h : dependencies.Perm p.bundle.dependencies)
    (hids : (p.bundle.dependencies.map (·.id)).Nodup)
    (hdigests : (p.bundle.dependencies.map (·.digest)).Nodup) :
    compile { p with bundle := { p.bundle with dependencies } } = compile p := by
  simp only [compile, Package.discoveredSteps, Package.compilation_of_perm h hids hdigests]

/-- A package one of whose dependencies has the identifier of another as its own digest. -/
def aliasPackage : Package where
  bundle := {
    main := { captureBase := { digest := "work", attributes := [("author", .text "refs:author")] } }
    dependencies := [
      { digest := "author", captureBase := {
        digest := "person", attributes := [("employer", .text "refs:firm")] } },
      { digest := "person", captureBase := {
        digest := "firm", attributes := [("name", .text "Text")] } }] }
  presentations := [
    { captureBase := "work"
      interactions := [SortedMap.empty.insert "author" { kind := some (.name "reference") }] }]

/-- The two may change places. -/
theorem compile_of_perm_alias :
    aliasPackage.bundle.dependencies.reverse.Perm aliasPackage.bundle.dependencies ∧
      (aliasPackage.bundle.dependencies.map (·.id)).Nodup ∧
      (aliasPackage.bundle.dependencies.map (·.digest)).Nodup ∧
      compile { aliasPackage with bundle := { aliasPackage.bundle with
        dependencies := aliasPackage.bundle.dependencies.reverse } } = compile aliasPackage := by
  have hperm := List.reverse_perm aliasPackage.bundle.dependencies
  have hids : (aliasPackage.bundle.dependencies.map (·.id)).Nodup := by decide
  have hdigests : (aliasPackage.bundle.dependencies.map (·.digest)).Nodup := by decide
  exact ⟨hperm, hids, hdigests, compile_of_perm hperm hids hdigests⟩

end Form
end Questionnaire
