import Mathlib
import Questionnaire.Proofs.Overlay.Projection
import Questionnaire.Proofs.Page.Layout
import Questionnaire.Proofs.Step.Hints

/-
  What a form shows in a language.

  A text is shown as it is given in the language, and where none is given, as it is given in English
  (`ShownIn`); an empty text is not given. The texts of a field are given by the overlays of its
  unit, those of a page and of its sections by the presentation that contributes the page. Between
  the package and the form they are collected by language, narrowed to one attribute or key, and
  carried along with fields and pages; `get?_perLanguage_iff` and `get?_textsOfKey_iff` say what is
  left of them, and `fallsBack_localized?` that this is what is shown. `worded_of_mem_steps` puts it
  together for every step of a form.
-/

namespace Questionnaire

/-! ## English stands in -/

/-- What is shown in a language: the text that is given in it, else the one that is given in
English. -/
def ShownIn (given : String → String → Prop) (language text : String) : Prop :=
  given language text ∨ (∀ other, ¬ given language other) ∧ given defaultLanguage text

/-- In every language the text that is shown is the one that the given texts make be shown; where
they make none be shown, there is none. -/
def FallsBack (shown : String → Option String) (given : String → String → Prop) : Prop :=
  ∀ language text, shown language = some text ↔ ShownIn given language text

/-- Overlays give a text for an attribute in a language. -/
def OverlayGives (overlays : List (LanguageOverlay String)) (id language text : String) : Prop :=
  text ≠ "" ∧ ∃ o ∈ overlays, o.language = language ∧ o.attributes.get? id = some text

/-- Texts by language and key give a text for a key in a language. -/
def KeyGives (texts : LanguageMap (SortedMap String)) (key language text : String) : Prop :=
  text ≠ "" ∧ ∃ m, texts.get? language = some m ∧ m.get? key = some text

theorem fallsBack_localized? {texts : LanguageMap String} {given : String → String → Prop}
    (h : ∀ language text, given language text ↔ text ≠ "" ∧ texts.get? language = some text) :
    FallsBack texts.localized? given := by
  have hgiven (language text : String) :
      (texts.get? language).filter (· ≠ "") = some text ↔ given language text := by
    rw [h, Option.filter_eq_some_iff, decide_eq_true_eq, and_comm]
  intro language text
  unfold LanguageMap.localized? ShownIn
  rw [Option.or_eq_some_iff, Option.eq_none_iff_forall_ne_some]
  simp only [ne_eq, hgiven]

/-! ## Texts of an attribute and of a key -/

/-- With one overlay for each language, what is narrowed to an attribute is what the overlays say
about it. -/
theorem get?_perLanguage_iff {α : Type} {overlays : List (LanguageOverlay α)}
    (hnodup : (overlays.map (·.language)).Nodup) {id language : String} {v : α} :
    (perLanguage (byLanguage overlays) id).get? language = some v ↔
      ∃ o ∈ overlays, o.language = language ∧ o.attributes.get? id = some v := by
  have hlast := lastCounts_byLanguage overlays
  unfold perLanguage
  rw [SortedMap.get?_filterMap]
  constructor
  · intro hv
    rw [hlast.entry, Option.bind_eq_some_iff] at hv
    obtain ⟨last, hfound, hget⟩ := hv
    obtain ⟨hmem, hlanguage⟩ := mem_of_lastIn hfound
    exact ⟨last, hmem, hlanguage, hget⟩
  · rintro ⟨o, ho, rfl, hget⟩
    rw [hlast.single hnodup o ho, Option.bind_some, hget]

theorem get?_textsOfKey_iff {texts : LanguageMap (SortedMap String)} {key language text : String} :
    (textsOfKey texts key).get? language = some text ↔ KeyGives texts key language text := by
  unfold textsOfKey KeyGives
  rw [SortedMap.get?_filterMap, Option.bind_eq_some_iff]
  simp only [Option.filter_eq_some_iff, decide_eq_true_eq]
  constructor
  · rintro ⟨m, hm, hget, hne⟩
    exact ⟨hne, m, hm, hget⟩
  · rintro ⟨hne, m, hm, hget⟩
    exact ⟨m, hm, hget, hne⟩

theorem fallsBack_perLanguage {overlays : List (LanguageOverlay String)}
    (hnodup : (overlays.map (·.language)).Nodup) (id : String) :
    FallsBack (perLanguage (byLanguage overlays) id).localized? (OverlayGives overlays id) := by
  apply fallsBack_localized?
  intro language text
  unfold OverlayGives
  rw [get?_perLanguage_iff hnodup]

theorem fallsBack_textsOfKey (texts : LanguageMap (SortedMap String)) (key : String) :
    FallsBack (textsOfKey texts key).localized? (KeyGives texts key) := by
  apply fallsBack_localized?
  intro language text
  rw [get?_textsOfKey_iff]
  exact ⟨fun h => ⟨h.1, h⟩, fun h => h.2⟩

theorem localized?_empty (language : String) :
    LanguageMap.localized? ∅ language = none := rfl

/-! ## Texts of a page -/

namespace Presentation

/-- What is shown above the fields of an entry of a page. -/
inductive Titled (q : Presentation) : OrderEntry → List Section → Prop
  /-- A section has the label of its key. -/
  | named {key : String} {ids : List String} {s : Section} (hkey : s.key = key)
    (hlabel : FallsBack s.label? (KeyGives q.pageLabels key)) : q.Titled (.grouped key ids) [s]
  /-- An attribute that stands alone has no label but that of its field. -/
  | alone {id : String} {s : Section} (hlabel : ∀ language, s.label? language = none) :
    q.Titled (.single id) [s]
  | dropped {id : String} : q.Titled (.single id) []

/-- The texts of a page are those that a presentation has for its key. -/
structure Worded (q : Presentation) (page : Page) : Prop where
  label : FallsBack page.label? (KeyGives q.pageLabels page.key)
  /-- In the sidebar the label of the page stands in for a text of its own. -/
  sidebar : ∀ language text, page.sidebarLabel? language = some text ↔
    ShownIn (KeyGives q.sidebarLabels page.key) language text ∨
      (∀ other, ¬ ShownIn (KeyGives q.sidebarLabels page.key) language other) ∧
        page.label? language = some text
  subheading : FallsBack page.subheading? (KeyGives q.subheadings page.key)
  sections : ∃ definition shown, q.page? page.key = some definition ∧
    List.Forall₂ q.Titled definition.order shown ∧ page.sections = shown.flatten

variable {q : Presentation} {fields : List Field} {page : Page}

theorem titled_section? (q : Presentation) (fields : List Field) (entry : OrderEntry) :
    q.Titled entry (q.section? fields entry).toList := by
  cases entry with
  | single id =>
    change q.Titled (.single id) ((findField? fields id).map (Section.anonymous id)).toList
    cases findField? fields id with
    | some f => exact .alone localized?_empty
    | none => exact .dropped
  | grouped key ids => exact .named rfl (fallsBack_textsOfKey q.pageLabels key)

theorem worded_layOut {key : String} {definition : PageDefinition}
    (h : q.page? key = some definition) : q.Worded (q.layOut fields key definition) where
  label := fallsBack_textsOfKey q.pageLabels key
  sidebar := by
    intro language text
    have hshown (text : String) : (textsOfKey q.sidebarLabels key).localized? language = some text ↔
        ShownIn (KeyGives q.sidebarLabels key) language text :=
      fallsBack_textsOfKey q.sidebarLabels key language text
    unfold Page.sidebarLabel?
    rw [Option.or_eq_some_iff, Option.eq_none_iff_forall_ne_some]
    simp only [layOut, ne_eq, hshown]
  subheading := fallsBack_textsOfKey q.subheadings key
  sections := by
    refine ⟨definition, _, h, ?_, q.sections_layOut fields key definition⟩
    rw [List.forall₂_map_right_iff, List.forall₂_same]
    exact fun entry _ => q.titled_section? fields entry

theorem worded_of_mem_materialize (h : page ∈ q.materialize fields) : q.Worded page := by
  obtain ⟨definition, hdefinition, hpage⟩ := exists_definition_of_mem_materialize h
  rw [hpage]
  exact worded_layOut hdefinition

end Presentation

/-! ## Texts of a step -/

namespace Package

/-- What a step shows is what its unit and the presentations of the unit say. -/
structure Worded (p : Package) (u : CaptureUnit) (s : Step) : Prop where
  found : p.index.find? s.id = some u
  fields : ∀ f ∈ s.fields, FallsBack f.label? (OverlayGives u.overlays.labels f.id) ∧
    FallsBack f.information? (OverlayGives u.overlays.information f.id)
  contributed : ∀ d page, p.Contributes u d page → page ∈ s.pages ∧ d.presentation.Worded page
  /-- The page that stands in where none is contributed has no texts. -/
  standIn : ∀ page ∈ s.pages, (∀ d, ¬ p.Contributes u d page) →
    ∀ language, page.label? language = none ∧ page.sidebarLabel? language = none

variable {p : Package} {u : CaptureUnit} {s : Step} {f : Field}

/-- The texts of a field are those of its attribute in the overlays of the unit. -/
theorem fallsBack_of_mem_unitFields (hlabels : (u.overlays.labels.map (·.language)).Nodup)
    (hinformation : (u.overlays.information.map (·.language)).Nodup) (hf : f ∈ p.unitFields u) :
    FallsBack f.label? (OverlayGives u.overlays.labels f.id) ∧
      FallsBack f.information? (OverlayGives u.overlays.information f.id) := by
  have hmade := eq_of_mem_unitFields hf
  have hlabel : f.labels = perLanguage (byLanguage u.overlays.labels) f.id :=
    congrArg Field.labels hmade
  have htext : f.information = perLanguage (byLanguage u.overlays.information) f.id :=
    congrArg Field.information hmade
  unfold Field.label? Field.information?
  rw [hlabel, htext]
  exact ⟨fallsBack_perLanguage hlabels f.id, fallsBack_perLanguage hinformation f.id⟩

/-- In a package whose units have one label overlay and one information overlay for each language, a
field of a form shows in every language the label and the help text that its unit gives to the
attribute in that language, else the English ones. A page shows in every language the texts that the
presentation gives for its key, else the English ones, and so do its sections; what the sidebar has
no text for is shown there by the label of the page. -/
theorem worded_of_mem_steps
    (honce : ∀ u ∈ p.bundle.main :: p.bundle.dependencies,
      (u.overlays.labels.map (·.language)).Nodup ∧ (u.overlays.information.map (·.language)).Nodup)
    (hs : s ∈ (Form.compile p).steps) : ∃ u, p.Worded u s := by
  obtain ⟨u, hu⟩ := isStepOf_of_mem (mem_steps_compile.1 hs)
  obtain ⟨hlabels, hinformation⟩ := honce u (UnitIndex.mem_of_find? hu.found)
  refine ⟨u, hu.found, ?_, ?_, ?_⟩
  · intro f hf
    exact fallsBack_of_mem_unitFields hlabels hinformation (mem_unitFields_of_mem_fields hu hf)
  · intro d page hd
    have hpresented := mem_presentedPages_iff.2 ⟨d, hd⟩
    refine ⟨?_, Presentation.worded_of_mem_materialize hd.2⟩
    rwa [hu.pages, if_neg (List.ne_nil_of_mem hpresented)]
  · intro page hpage hnone language
    rw [hu.pages] at hpage
    split at hpage
    · rw [List.mem_singleton.1 hpage]
      exact ⟨rfl, rfl⟩
    · obtain ⟨d, hd⟩ := mem_presentedPages_iff.1 hpage
      exact absurd hd (hnone d)

/-- A package on works with texts in English and in French, some of them empty. -/
def bilingualPackage : Package where
  bundle := {
    main := {
      captureBase := {
        digest := "work"
        attributes := [("title", .text "Text"), ("author", .text "Text")] }
      overlays := {
        labels := [
          { language := "fra"
            attributes := (SortedMap.empty.insert "title" "").insert "author" "Auteur" },
          { language := "eng"
            attributes := (SortedMap.empty.insert "title" "Title").insert "author" "Author" }]
        information := [
          { language := "eng", attributes := SortedMap.empty.insert "title" "As printed" }] } } }
  presentations := [
    { captureBase := "work"
      pages := [{ key := "about", order := [.single "title", .grouped "makers" ["author"]] }]
      pageOrder := ["about"]
      pageLabels :=
        (SortedMap.empty.insert "eng"
          ((SortedMap.empty.insert "about" "About").insert "makers" "Makers")).insert "fra"
          ((SortedMap.empty.insert "about" "").insert "makers" "Auteurs")
      sidebarLabels := SortedMap.empty.insert "fra" (SortedMap.empty.insert "about" "Sujet") }]

theorem texts_bilingualPackage :
    ((Form.compile bilingualPackage).steps.map fun s =>
      (s.fields.map fun f => (f.label? "fra", f.information? "fra"),
        s.pages.map fun page => (page.label? "fra", page.sidebarLabel? "fra",
          page.sidebarLabel? "deu", page.sections.map (·.label? "fra")))) =
      [([(some "Title", some "As printed"), (some "Auteur", none)],
        [(some "About", some "Sujet", some "About", [none, some "Auteurs"])])] := by cbv

/-- The French title is empty, so the English one is shown; the author is labelled in French. -/
theorem worded_of_mem_steps_bilingual :
    (∀ u ∈ bilingualPackage.bundle.main :: bilingualPackage.bundle.dependencies,
      (u.overlays.labels.map (·.language)).Nodup ∧
        (u.overlays.information.map (·.language)).Nodup) ∧
    ∃ s ∈ (Form.compile bilingualPackage).steps,
      (s.fields.map fun f => (f.label? "fra", f.information? "fra")) =
        [(some "Title", some "As printed"), (some "Auteur", none)] ∧
      ∃ u, bilingualPackage.Worded u s := by
  have honce : ∀ u ∈ bilingualPackage.bundle.main :: bilingualPackage.bundle.dependencies,
      (u.overlays.labels.map (·.language)).Nodup ∧
        (u.overlays.information.map (·.language)).Nodup := by
    intro u hu
    rw [List.mem_singleton.1 hu]
    decide
  obtain ⟨s, hs, htexts⟩ := List.mem_map.1 (texts_bilingualPackage ▸ List.mem_cons_self)
  exact ⟨honce, s, hs, congrArg Prod.fst htexts, worded_of_mem_steps honce hs⟩

end Package
end Questionnaire
