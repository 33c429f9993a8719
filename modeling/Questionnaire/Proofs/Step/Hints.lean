import Mathlib
import Questionnaire.Proofs.Step.Targets

/-
  Whose hints a field follows, and whose pages it stands on.

  The pages of a step come from all presentations that describe its unit: of several with one key
  that of the first presentation that lays it out (`mem_presentedPages_iff`). The fields of the unit
  are made once, before any page, with the hints of the first presentation that describes the unit
  (`eq_of_mem_unitFields`). So a page follows the hints of its own presentation only where that is
  the first one: what a later presentation declares about a field stays unheard even on its own
  pages (`later_hints_unheard`).
-/

namespace Questionnaire

/-! ## The first page of a key -/

theorem mem_firstOfKeys_iff {pages : List Page} {page : Page} :
    page ∈ firstOfKeys pages ↔ pages.find? (·.key = page.key) = some page := by
  induction pages with
  | nil => simp [firstOfKeys]
  | cons p pages ih =>
    rw [firstOfKeys, List.mem_cons, List.mem_filter, List.find?_cons, ih]
    by_cases hkey : p.key = page.key
    · simp [hkey, eq_comm]
    · have hne : page ≠ p := fun h => hkey (h ▸ rfl)
      simp [hkey, hne, Ne.symm hkey]

/-- What a presentation lays out for a key is one page. -/
theorem Presentation.eq_of_mem_materialize {q : Presentation} {fields : List Field}
    {page page' : Page} (h : page ∈ q.materialize fields) (h' : page' ∈ q.materialize fields)
    (hkey : page.key = page'.key) : page = page' := by
  obtain ⟨d, hd, hpage⟩ := exists_definition_of_mem_materialize h
  obtain ⟨d', hd', hpage'⟩ := exists_definition_of_mem_materialize h'
  obtain rfl : d = d' := Option.some.inj (hd.symm.trans (hkey ▸ hd'))
  rw [hpage, hpage', hkey]

theorem Presentation.find?_materialize_iff {q : Presentation} {fields : List Field} {page : Page} :
    (q.materialize fields).find? (·.key = page.key) = some page ↔
      page ∈ q.materialize fields := by
  refine ⟨List.mem_of_find?_eq_some, fun h => ?_⟩
  have hsome : ((q.materialize fields).find? (·.key = page.key)).isSome :=
    List.find?_isSome.2 ⟨page, h, decide_eq_true rfl⟩
  obtain ⟨found, hfound⟩ := Option.isSome_iff_exists.1 hsome
  have hkey := List.find?_some hfound
  rw [hfound, q.eq_of_mem_materialize (List.mem_of_find?_eq_some hfound) h (of_decide_eq_true hkey)]

/-- What is first found in some list is found in the first list that holds such a thing. -/
theorem findSome?_find?_iff {α β : Type} {f : α → List β} {good : β → Bool} {xs : List α} {b : β} :
    xs.findSome? (fun a => (f a).find? good) = some b ↔
      ∃ a, xs.find? (fun a => (f a).any good) = some a ∧ (f a).find? good = some b := by
  induction xs with
  | nil => simp
  | cons x xs ih =>
    rw [List.findSome?_cons, List.find?_cons, ← List.isSome_find?]
    cases hx : (f x).find? good with
    | none => exact ih
    | some c => simp [hx]

namespace Package

/-! ## Where pages come from -/

/-- The first presentation of a unit that lays out a page of a key. -/
def contributor? (p : Package) (u : CaptureUnit) (key : String) : Option Described :=
  (p.processed.filter (·.unit = u.id)).find? fun d =>
    (d.presentation.materialize (p.unitFields u)).any (·.key = key)

/-- A presentation contributes a page to the step of its unit: it lays out the page, and none before
it lays out a page of that key for the unit. -/
def Contributes (p : Package) (u : CaptureUnit) (d : Described) (page : Page) : Prop :=
  p.contributor? u page.key = some d ∧ page ∈ d.presentation.materialize (p.unitFields u)

/-- How a step shows its unit. -/
structure Shows (p : Package) (u : CaptureUnit) (s : Step) : Prop where
  found : p.index.find? s.id = some u
  /-- One page with all fields stands in where no presentation contributes any. -/
  source : ∀ page ∈ s.pages, (∃ d, p.Contributes u d page) ∨
    (∀ d other, ¬ p.Contributes u d other) ∧ page = Page.default s.id (p.unitFields u)
  contributed : ∀ d page, p.Contributes u d page → page ∈ s.pages
  /-- The fields of all pages follow the hints of the first presentation of the unit. -/
  made : ∀ d page, p.Contributes u d page →
    ∃ first, p.processed.find? (·.unit = u.id) = some first ∧ ∀ f ∈ page.fields,
      f = Field.synthesize f.id (OverlayProjection.ofUnit u) (first.presentation.hint? f.id)
        (SortedMap.ofList (u.links p.index)) ∧
      ∀ name kind, declaredType? (first.presentation.hint? f.id) = some name →
        FieldKind.ofHint? name = some kind → f.kind = kind

variable {p : Package} {u : CaptureUnit} {s : Step} {page : Page} {d : Described} {f : Field}

theorem mem_presentedPages_iff :
    page ∈ p.presentedPages u ↔ ∃ d, p.Contributes u d page := by
  simp only [presentedPages, mem_firstOfKeys_iff, List.find?_flatMap, findSome?_find?_iff,
    Presentation.find?_materialize_iff, Contributes, contributor?]

theorem Contributes.exists_first (h : p.Contributes u d page) :
    ∃ first, p.processed.find? (·.unit = u.id) = some first := by
  obtain ⟨hd, hunit⟩ := List.mem_filter.1 (List.mem_of_find?_eq_some h.1)
  exact Option.isSome_iff_exists.1 (List.find?_isSome.2 ⟨d, hd, hunit⟩)

/-! ## What fields are made from -/

/-- A field is made from what overlays, references and the first presentation of the unit say about
the attribute of its name. -/
theorem eq_of_mem_unitFields (hf : f ∈ p.unitFields u) :
    f = Field.synthesize f.id (OverlayProjection.ofUnit u)
      ((p.processed.find? (·.unit = u.id)).bind (·.presentation.hint? f.id))
      (SortedMap.ofList (u.links p.index)) := by
  obtain ⟨a, -, rfl⟩ := List.mem_map.1 hf
  rfl

end Package

theorem Field.kind_synthesize {id name : String} {kind : FieldKind} {hint : Option Hint}
    (overlays : OverlayProjection) (references : SortedMap String)
    (hname : declaredType? hint = some name) (hkind : FieldKind.ofHint? name = some kind) :
    (synthesize id overlays hint references).kind = kind := by
  simp only [synthesize, fieldKind, hname, hkind, Option.getD_some]

namespace Package

/-- The pages of a step are those that the presentations of its unit contribute, or one page with
all fields if they contribute none. On every page contributed the fields are made with the hints of
the first presentation that describes the unit; in particular what that one declares as a reference
is a reference field there. -/
theorem shows_of_mem_steps (hs : s ∈ (Form.compile p).steps) : ∃ u, p.Shows u s := by
  obtain ⟨u, hu⟩ := isStepOf_of_mem (mem_steps_compile.1 hs)
  refine ⟨u, hu.found, fun page hpage => ?_, fun d page hd => ?_, fun d page hd => ?_⟩
  · rw [hu.pages] at hpage
    split at hpage
    · next hnone =>
      refine .inr ⟨fun d other hd => ?_, List.mem_singleton.1 hpage⟩
      exact List.not_mem_nil (hnone ▸ mem_presentedPages_iff.2 ⟨d, hd⟩)
    · exact .inl (mem_presentedPages_iff.1 hpage)
  · have hpresented := mem_presentedPages_iff.2 ⟨d, hd⟩
    rwa [hu.pages, if_neg (List.ne_nil_of_mem hpresented)]
  · obtain ⟨first, hfirst⟩ := hd.exists_first
    refine ⟨first, hfirst, fun f hf => ?_⟩
    have hfield : f ∈ p.unitFields u :=
      mem_of_findField? (d.presentation.findField?_of_mem_materialize hd.2 hf)
    have hmade := eq_of_mem_unitFields hfield
    rw [hfirst, Option.bind_some] at hmade
    refine ⟨hmade, fun name kind hname hkind => ?_⟩
    rw [hmade]
    exact Field.kind_synthesize _ _ hname hkind

/-- A package with two presentations of works. The second one has the page with the author, and
declares the author to be a reference. -/
def twoPresentationsPackage : Package where
  bundle := {
    main := {
      captureBase := {
        digest := "work"
        attributes := [("title", .text "Text"), ("author", .text "refs:person")] } }
    dependencies := [
      { captureBase := { digest := "person", attributes := [("name", .text "Text")] } }] }
  presentations := [
    { captureBase := "work"
      pages := [{ key := "about", order := [.single "title"] }]
      pageOrder := ["about"] },
    { captureBase := "work"
      pages := [{ key := "authors", order := [.single "author"] }]
      pageOrder := ["authors"]
      interactions := [SortedMap.empty.insert "author" { kind := some (.name "reference") }] }]

theorem keys_twoPresentationsPackage :
    (Form.compile twoPresentationsPackage).steps.map (·.pages.map (·.key)) =
      [["about", "authors"], ["person"]] := by cbv

/-- The step of works has a page from each presentation. -/
theorem shows_of_mem_steps_works :
    ∃ s ∈ (Form.compile twoPresentationsPackage).steps, s.pages.map (·.key) = ["about", "authors"] ∧
      ∃ u, twoPresentationsPackage.Shows u s := by
  have hmem : ["about", "authors"] ∈
      (Form.compile twoPresentationsPackage).steps.map (·.pages.map (·.key)) :=
    keys_twoPresentationsPackage ▸ List.mem_cons_self
  obtain ⟨s, hs, hkeys⟩ := List.mem_map.1 hmem
  exact ⟨s, hs, hkeys, shows_of_mem_steps hs⟩

/-- The second presentation contributes the page with the author. Its hint makes the author a
reference to persons, but on the page the author is a text area that leads nowhere. -/
theorem later_hints_unheard :
    let p := twoPresentationsPackage
    let hint : Hint := { kind := some (.name "reference") }
    let hinted := Field.synthesize "author" (OverlayProjection.ofUnit p.bundle.main) (some hint)
      (SortedMap.ofList (p.bundle.main.links p.index))
    (p.contributor? p.bundle.main "authors").map (·.presentation.hint? "author") =
        some (some hint) ∧
      (hinted.kind, hinted.target) = (.reference, some "person") ∧
      ((Form.compile p).steps.map fun s => s.pages.map fun page =>
        (page.key, page.fields.map fun f => (f.id, f.kind, f.target))) =
        [[("about", [("title", .textarea, none)]), ("authors", [("author", .textarea, none)])],
          [("person", [("name", .textarea, none)])]] := by
  refine ⟨?_, ?_, ?_⟩ <;> cbv

end Package
end Questionnaire
