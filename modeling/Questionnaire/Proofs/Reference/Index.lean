import Questionnaire.Reference.Index

/-
  Finding units is a scan of the bundle.

  `find?_build` says which unit an index finds: the main unit, else the first dependency whose
  capture base has the identifier, else the first one whose own digest it is. So every unit that
  is found is known under an identifier that leads to a unit again (`canonical_build`), and
  following references never leaves the bundle. The identifiers that lead to themselves are the
  digests of capture bases (`knows_build_iff`); for those the scan ends with the capture bases
  (`find?_of_knows`). `resolve_eq_scan` puts this together.
-/

namespace Questionnaire.UnitIndex

/-! ## The index and the scan -/

theorem get?_insertFirst (m : SortedMap CaptureUnit) (key : String) (u : CaptureUnit)
    (k : String) :
    (insertFirst m key u).get? k = (m.get? k).or (if key = k then some u else none) := by
  unfold insertFirst
  split
  · next h =>
    rcases Decidable.em (key = k) with rfl | hk
    · obtain ⟨v, hv⟩ := Option.isSome_iff_exists.1 h
      simp [hv]
    · simp [hk]
  · next h =>
    rw [SortedMap.get?_insert]
    rcases Decidable.em (key = k) with rfl | hk
    · have hnone : m.get? key = none := by simpa [SortedMap.contains] using h
      simp [hnone]
    · simp [hk, Ne.symm hk]

theorem get?_foldl_insertFirst (key : CaptureUnit → String) (units : List CaptureUnit)
    (m : SortedMap CaptureUnit) (k : String) :
    (units.foldl (fun m u => insertFirst m (key u) u) m).get? k =
      (m.get? k).or (units.find? (key · = k)) := by
  induction units generalizing m with
  | nil => simp
  | cons u units ih =>
    rw [List.foldl_cons, ih, get?_insertFirst, List.find?_cons, Option.or_assoc]
    by_cases hk : key u = k <;> simp [hk]

theorem find?_build (main : CaptureUnit) (dependencies : List CaptureUnit) (id : String) :
    (build main dependencies).find? id =
      if main.id = id then some main
      else (dependencies.find? (·.id = id)).or (dependencies.find? (·.digest = id)) := by
  rw [find?, build]
  simp only [get?_foldl_insertFirst, SortedMap.get?_emptyCollection, Option.none_or]

/-! ## Identifiers that units are known by -/

/-- An identifier leads to a unit that is known by it. -/
def Knows (index : UnitIndex) (id : String) : Prop := ∃ u, index.find? id = some u ∧ u.id = id

/-- Whatever unit is found, the identifier it is known by leads to a unit that is known by it. The
two need not be the same, as several units may share an identifier. -/
def Canonical (index : UnitIndex) : Prop := ∀ id u, index.find? id = some u → index.Knows u.id

variable {index : UnitIndex} {id : String} {u : CaptureUnit}

theorem id_of_knows (h : index.Knows id) (hu : index.find? id = some u) : u.id = id := by
  obtain ⟨v, hv, hid⟩ := h
  rw [hu] at hv
  cases hv
  exact hid

theorem knows_of_canonicalId? (hc : index.Canonical) {named : String}
    (h : index.canonicalId? named = some id) : index.Knows id := by
  obtain ⟨u, hu, rfl⟩ := Option.map_eq_some_iff.1 h
  exact hc named u hu

/-- An identifier that a dependency is known by is found by the scan of capture bases. -/
theorem knows_of_mem {main : CaptureUnit} {dependencies : List CaptureUnit}
    (h : u ∈ main :: dependencies) : (build main dependencies).Knows u.id := by
  rw [Knows, find?_build]
  rcases Decidable.em (main.id = u.id) with hmain | hmain
  · exact ⟨main, if_pos hmain, hmain⟩
  · have hmem : u ∈ dependencies := (List.mem_cons.1 h).resolve_left fun hu => hmain (hu ▸ rfl)
    have hsome : (dependencies.find? (·.id = u.id)).isSome :=
      List.find?_isSome.2 ⟨u, hmem, by simp⟩
    obtain ⟨v, hv⟩ := Option.isSome_iff_exists.1 hsome
    exact ⟨v, by rw [if_neg hmain, hv]; rfl, by simpa using List.find?_some hv⟩

theorem mem_of_find? {main : CaptureUnit} {dependencies : List CaptureUnit}
    (h : (build main dependencies).find? id = some u) : u ∈ main :: dependencies := by
  rw [find?_build] at h
  split at h
  · cases h
    exact List.mem_cons_self
  · rcases Option.or_eq_some_iff.1 h with h | ⟨-, h⟩
    · exact List.mem_cons_of_mem _ (List.mem_of_find?_eq_some h)
    · exact List.mem_cons_of_mem _ (List.mem_of_find?_eq_some h)

theorem canonical_build (main : CaptureUnit) (dependencies : List CaptureUnit) :
    (build main dependencies).Canonical :=
  fun _ _ hu => knows_of_mem (mem_of_find? hu)

theorem canonicalId?_eq_self_iff : index.canonicalId? id = some id ↔ index.Knows id :=
  Option.map_eq_some_iff

/-- What a name leads to is known by that very name exactly when the name leads to itself. -/
theorem eq_iff_knows (hc : index.Canonical) {named : String}
    (h : index.canonicalId? named = some id) : named = id ↔ index.Knows named := by
  constructor
  · rintro rfl
    exact knows_of_canonicalId? hc h
  · intro hnamed
    rw [canonicalId?_eq_self_iff.2 hnamed] at h
    exact Option.some.inj h

theorem canonicalId_eq_ok_iff {named : String} :
    index.canonicalId named = .ok id ↔ index.canonicalId? named = some id := by
  rw [canonicalId, canonicalId?, resolve]
  cases index.find? named with
  | none => simp [Except.map]
  | some u => simp [Except.map]

section Build

variable {main : CaptureUnit} {dependencies : List CaptureUnit}

/-- The identifiers that lead to themselves are the digests of capture bases. -/
theorem knows_build_iff :
    (build main dependencies).Knows id ↔ ∃ u ∈ main :: dependencies, u.id = id := by
  constructor
  · rintro ⟨u, hu, hid⟩
    exact ⟨u, mem_of_find? hu, hid⟩
  · rintro ⟨u, hu, rfl⟩
    exact knows_of_mem hu

/-- The unit of such an identifier is the first one whose capture base has it. -/
theorem find?_of_knows (h : (build main dependencies).Knows id) :
    (build main dependencies).find? id = (main :: dependencies).find? (·.id = id) := by
  rw [find?_build, List.find?_cons]
  by_cases hmain : main.id = id
  · simp [hmain]
  · obtain ⟨u, hu, hid⟩ := knows_build_iff.1 h
    have hmem : u ∈ dependencies := by
      rcases List.mem_cons.1 hu with rfl | hmem
      · exact absurd hid hmain
      · exact hmem
    have hsome : (dependencies.find? (·.id = id)).isSome :=
      List.find?_isSome.2 ⟨u, hmem, decide_eq_true hid⟩
    obtain ⟨v, hv⟩ := Option.isSome_iff_exists.1 hsome
    simp [hmain, hv]

end Build

/-! ## The index and the scan -/

/-- Finding a unit without an index, by looking through the bundle. -/
def scan (main : CaptureUnit) (dependencies : List CaptureUnit) (id : String) :
    Except FormError CaptureUnit :=
  if main.id = id then .ok main
  else match dependencies.find? (·.id = id), dependencies.find? (·.digest = id) with
    | some u, _ => .ok u
    | none, some u => .ok u
    | none, none => .error (.entityNotFound id)

theorem resolve_build (main : CaptureUnit) (dependencies : List CaptureUnit) (id : String) :
    (build main dependencies).resolve id = scan main dependencies id := by
  rw [resolve, find?_build, scan]
  by_cases hmain : main.id = id
  · rw [if_pos hmain, if_pos hmain]
  · rw [if_neg hmain, if_neg hmain]
    cases dependencies.find? (·.id = id) with
    | some u => rfl
    | none =>
      cases dependencies.find? (·.digest = id) with
      | some u => rfl
      | none => rfl

/-- An index finds the unit that a scan of the bundle finds, and fails where it fails. The
identifier that a unit is known by leads to itself, and to the first unit of the bundle that is
known by it. -/
theorem resolve_eq_scan (main : CaptureUnit) (dependencies : List CaptureUnit) (id : String) :
    (build main dependencies).resolve id = scan main dependencies id ∧
      ∀ c, (build main dependencies).canonicalId id = .ok c →
        (build main dependencies).canonicalId c = .ok c ∧
          ∃ u, (main :: dependencies).find? (·.id = c) = some u ∧
            (build main dependencies).resolve c = .ok u := by
  refine ⟨resolve_build main dependencies id, fun c hc => ?_⟩
  have hknows : (build main dependencies).Knows c :=
    knows_of_canonicalId? (canonical_build main dependencies) (canonicalId_eq_ok_iff.1 hc)
  refine ⟨canonicalId_eq_ok_iff.2 (canonicalId?_eq_self_iff.2 hknows), ?_⟩
  have hfirst := find?_of_knows hknows
  obtain ⟨u, hu, -⟩ := hknows
  exact ⟨u, by rw [← hfirst, hu], by rw [resolve, hu]⟩

/-- Units of which one has the identifier of another as its own digest, and two share one. -/
def namesakes : List CaptureUnit :=
  [{ digest := "person", captureBase := { digest := "firm" } },
    { digest := "author", captureBase := { digest := "person" } },
    { digest := "editor", captureBase := { digest := "person" } }]

/-- The editor is known as a person, and so is the author, who is found for it. -/
theorem resolve_eq_scan_editor :
    (build {} namesakes).canonicalId "editor" = .ok "person" ∧
      (build {} namesakes).canonicalId "person" = .ok "person" ∧
      ∃ u, namesakes[1]? = some u ∧ (build {} namesakes).resolve "person" = .ok u := by
  have heditor : (build {} namesakes).canonicalId "editor" = .ok "person" := by
    rw [canonicalId, resolve_build]
    rfl
  obtain ⟨hperson, u, hu, hfound⟩ := (resolve_eq_scan {} namesakes "editor").2 "person" heditor
  exact ⟨heditor, hperson, u, hu, hfound⟩

end Questionnaire.UnitIndex
