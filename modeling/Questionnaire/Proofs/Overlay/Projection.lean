import Mathlib.Data.List.Nodup
import Questionnaire.Overlay.Projection

/-
  Several overlays in one language.

  Overlays of one kind are collected by language, and a later one takes the place of an earlier one
  as a whole (`get?_byLanguage`): what counts in a language is the last overlay alone, not all of
  them together. `LastCounts` says what follows. Where each language has one overlay, everything is
  there as it was given. Where it has several, an entry of an earlier one is there only if the last
  one has an entry for the same attribute; `earlier_overlays_lost` is a unit that loses entries of
  every kind.

  Meta overlays give a step its name and description. Here too the last one of a language counts
  (`StepTexts.takenFrom_ofUnit`), and what they give fixes the texts (`StepTexts.TakenFrom.unique`).
-/

namespace Questionnaire

variable {α : Type}

/-- Values filed under keys: the last one of a key is there. -/
theorem SortedMap.get?_ofList_map {β : Type} (xs : List β) (key : β → String) (value : β → α)
    (k : String) : (SortedMap.ofList (xs.map fun x => (key x, value x))).get? k =
      ((xs.filter (key · = k)).getLast?).map value := by
  rw [SortedMap.get?_ofList, List.getLast?_filter, ← List.map_reverse, List.find?_map,
    Option.map_map]
  rfl

/-- The last of the overlays in a language. -/
def lastIn (overlays : List (LanguageOverlay α)) (language : String) : Option (LanguageOverlay α) :=
  (overlays.filter (·.language = language)).getLast?

/-- Whatever some overlay says about an attribute in its language, something is there. -/
def NothingLost (overlays : List (LanguageOverlay α)) (m : LanguageMap (SortedMap α)) : Prop :=
  ∀ o ∈ overlays, ∀ id, o.attributes.contains id = true →
    ∃ v, (m.get? o.language).bind (·.get? id) = some v

/-- What is collected of overlays in several languages. -/
structure LastCounts (overlays : List (LanguageOverlay α)) (m : LanguageMap (SortedMap α)) :
    Prop where
  /-- In each language there is what the last overlay says, and nothing else. -/
  entry : ∀ language id, (m.get? language).bind (·.get? id) =
    (lastIn overlays language).bind (·.attributes.get? id)
  /-- Nothing is lost exactly where the last overlay of a language has all the attributes that the
  others in that language have. -/
  nothingLost_iff : NothingLost overlays m ↔
    ∀ o ∈ overlays, ∀ last, lastIn overlays o.language = some last →
      ∀ id, o.attributes.contains id = true → last.attributes.contains id = true
  /-- With one overlay for each language, each is there as it was given. -/
  single : (overlays.map (·.language)).Nodup →
    ∀ o ∈ overlays, m.get? o.language = some o.attributes

/-- The overlay of a language is the last one in it. -/
theorem get?_byLanguage (overlays : List (LanguageOverlay α)) (language : String) :
    (byLanguage overlays).get? language = (lastIn overlays language).map (·.attributes) := by
  rw [byLanguage, SortedMap.get?_ofList_map, lastIn]

theorem exists_lastIn {overlays : List (LanguageOverlay α)} {o : LanguageOverlay α}
    (h : o ∈ overlays) : ∃ last, lastIn overlays o.language = some last := by
  have hmem : o ∈ overlays.filter (·.language = o.language) :=
    List.mem_filter.2 ⟨h, decide_eq_true rfl⟩
  exact ⟨_, List.getLast?_eq_some_getLast (List.ne_nil_of_mem hmem)⟩

theorem mem_of_lastIn {overlays : List (LanguageOverlay α)} {last : LanguageOverlay α}
    {language : String} (h : lastIn overlays language = some last) :
    last ∈ overlays ∧ last.language = language := by
  obtain ⟨hmem, hlanguage⟩ := List.mem_filter.1 (List.mem_of_getLast? h)
  exact ⟨hmem, of_decide_eq_true hlanguage⟩

theorem lastCounts_byLanguage (overlays : List (LanguageOverlay α)) :
    LastCounts overlays (byLanguage overlays) := by
  have hentry (language id : String) : ((byLanguage overlays).get? language).bind (·.get? id) =
      (lastIn overlays language).bind (·.attributes.get? id) := by
    rw [get?_byLanguage, Option.bind_map]
    rfl
  refine ⟨hentry, ?_, ?_⟩
  · constructor
    · intro hkept o ho last hlast id hid
      obtain ⟨v, hv⟩ := hkept o ho id hid
      rw [hentry, hlast, Option.bind_some] at hv
      exact Option.isSome_of_eq_some hv
    · intro hall o ho id hid
      obtain ⟨last, hlast⟩ := exists_lastIn ho
      have hsome := hall o ho last hlast id hid
      obtain ⟨v, hv⟩ := Option.isSome_iff_exists.1 hsome
      exact ⟨v, by rw [hentry, hlast, Option.bind_some, hv]⟩
  · intro hnodup o ho
    obtain ⟨last, hlast⟩ := exists_lastIn ho
    obtain ⟨hmem, hlanguage⟩ := mem_of_lastIn hlast
    have hsame : last = o := List.inj_on_of_nodup_map hnodup hmem ho hlanguage
    rw [get?_byLanguage, hlast, Option.map_some, hsame]

theorem not_nothingLost_of_lastIn {overlays : List (LanguageOverlay α)}
    {o last : LanguageOverlay α} (id : String) (ho : o ∈ overlays)
    (hlast : lastIn overlays o.language = some last) (hid : o.attributes.contains id = true)
    (hlost : last.attributes.contains id = false) :
    ¬ NothingLost overlays (byLanguage overlays) := by
  intro hkept
  have hall := (lastCounts_byLanguage overlays).nothingLost_iff.1 hkept
  rw [hall o ho last hlast id hid] at hlost
  cases hlost

/-- Labels, options and help texts of a unit: of several overlays in one language the last one
counts, and the others are lost but for the attributes that the last one has as well. -/
theorem lastCounts_ofUnit (u : CaptureUnit) :
    LastCounts u.overlays.labels (OverlayProjection.ofUnit u).labels ∧
    LastCounts u.overlays.entries (OverlayProjection.ofUnit u).options ∧
    LastCounts u.overlays.information (OverlayProjection.ofUnit u).information :=
  ⟨lastCounts_byLanguage _, lastCounts_byLanguage _, lastCounts_byLanguage _⟩

/-- A unit with two English overlays of each kind, one on the title and one on the author. -/
def twiceOverlaidUnit : CaptureUnit where
  captureBase := {
    digest := "work"
    attributes := [("title", .text "Text"), ("author", .text "Text")] }
  overlays := {
    labels := [
      { language := "eng", attributes := SortedMap.empty.insert "title" "Title" },
      { language := "eng", attributes := SortedMap.empty.insert "author" "Author" }]
    entries := [
      { language := "eng", attributes := SortedMap.empty.insert "title" [⟨"t", "The Title"⟩] },
      { language := "eng", attributes := SortedMap.empty.insert "author" [⟨"a", "The Author"⟩] }]
    information := [
      { language := "eng", attributes := SortedMap.empty.insert "title" "As printed" },
      { language := "eng", attributes := SortedMap.empty.insert "author" "In full" }] }

/-- What the first overlay of each kind says about the title is lost. -/
theorem earlier_overlays_lost :
    let p := OverlayProjection.ofUnit twiceOverlaidUnit
    ¬ NothingLost twiceOverlaidUnit.overlays.labels p.labels ∧
      ¬ NothingLost twiceOverlaidUnit.overlays.entries p.options ∧
      ¬ NothingLost twiceOverlaidUnit.overlays.information p.information := by
  refine ⟨?_, ?_, ?_⟩
  all_goals exact not_nothingLost_of_lastIn "title" List.mem_cons_self rfl (by decide) (by decide)

/-! ## Names of a step -/

/-- The last of the meta overlays in a language. -/
def lastMeta? (metas : List MetaOverlay) (language : String) : Option MetaOverlay :=
  (metas.filter (·.language = language)).getLast?

theorem metas_ne_nil_of_lastMeta? {metas : List MetaOverlay} {language : String} {m : MetaOverlay}
    (h : lastMeta? metas language = some m) : metas ≠ [] := by
  rintro rfl
  cases h

namespace StepTexts

/-- The texts are those that meta overlays give; the last overlay of a language counts in it. -/
structure TakenFrom (texts : StepTexts) (metas : List MetaOverlay) : Prop where
  named : ∀ language m name, lastMeta? metas language = some m → m.name = some name → name ≠ "" →
    texts.names.get? language = some name
  /-- A missing name and an empty one leave the step unnamed. -/
  unnamed : ∀ language m, lastMeta? metas language = some m →
    (∀ name, m.name = some name → name = "") → texts.names.get? language = some "Unnamed Step"
  /-- A missing description is an empty one. -/
  described : ∀ language m, lastMeta? metas language = some m →
    texts.descriptions.get? language = some (m.description.getD "")
  /-- Without an overlay in any language the step is unnamed in English. -/
  nameless : ∀ language, lastMeta? metas language = none →
    texts.names.get? language = if metas = [] ∧ language = "eng" then some "Unnamed Step" else none
  undescribed : ∀ language, lastMeta? metas language = none →
    texts.descriptions.get? language = none

variable {texts other : StepTexts} {metas : List MetaOverlay}

/-- What meta overlays give leaves no choice. -/
theorem TakenFrom.unique (h : texts.TakenFrom metas) (h' : other.TakenFrom metas) :
    texts = other := by
  have hnames : texts.names = other.names := by
    refine SortedMap.ext_get? fun language => ?_
    cases hlast : lastMeta? metas language with
    | none => rw [h.nameless language hlast, h'.nameless language hlast]
    | some m =>
      by_cases hnone : ∀ name, m.name = some name → name = ""
      · rw [h.unnamed language m hlast hnone, h'.unnamed language m hlast hnone]
      · obtain ⟨name, hnot⟩ := not_forall.1 hnone
        obtain ⟨hname, hne⟩ := Classical.not_imp.1 hnot
        rw [h.named language m name hlast hname hne, h'.named language m name hlast hname hne]
  have hdescriptions : texts.descriptions = other.descriptions := by
    refine SortedMap.ext_get? fun language => ?_
    cases hlast : lastMeta? metas language with
    | none => rw [h.undescribed language hlast, h'.undescribed language hlast]
    | some m => rw [h.described language m hlast, h'.described language m hlast]
  cases texts
  cases other
  congr

variable {u : CaptureUnit}

theorem names_ofUnit_of_nil (h : u.overlays.metas = []) :
    (ofUnit u).names = SortedMap.empty.insert "eng" "Unnamed Step" := by
  unfold ofUnit
  rw [h]
  rfl

theorem get?_names_ofUnit (h : u.overlays.metas ≠ []) (language : String) :
    (ofUnit u).names.get? language =
      (lastMeta? u.overlays.metas language).map fun m =>
        (m.name.filter (· ≠ "")).getD unnamedStep := by
  have hsome : ¬ (SortedMap.ofList (u.overlays.metas.map fun m =>
      (m.language, (m.name.filter (· ≠ "")).getD unnamedStep))).isEmpty := by
    rwa [SortedMap.isEmpty_ofList_iff, List.map_eq_nil_iff]
  unfold ofUnit
  dsimp only
  rw [if_neg hsome, SortedMap.get?_ofList_map, lastMeta?]

theorem get?_descriptions_ofUnit (u : CaptureUnit) (language : String) :
    (ofUnit u).descriptions.get? language =
      (lastMeta? u.overlays.metas language).map (·.description.getD "") := by
  unfold ofUnit
  dsimp only
  rw [SortedMap.get?_ofList_map, lastMeta?]

/-- The texts of a unit are those that its meta overlays give. -/
theorem takenFrom_ofUnit (u : CaptureUnit) : (ofUnit u).TakenFrom u.overlays.metas := by
  have hnames (language : String) (m : MetaOverlay)
      (hlast : lastMeta? u.overlays.metas language = some m) :
      (ofUnit u).names.get? language = some ((m.name.filter (· ≠ "")).getD unnamedStep) := by
    rw [get?_names_ofUnit (metas_ne_nil_of_lastMeta? hlast), hlast, Option.map_some]
  constructor
  case named =>
    intro language m name hlast hname hne
    rw [hnames language m hlast, hname, Option.filter_some, if_pos (decide_eq_true hne),
      Option.getD_some]
  case unnamed =>
    intro language m hlast hnone
    have hfilter : m.name.filter (· ≠ "") = none := by
      rw [Option.filter_eq_none_iff]
      intro name hname
      simpa using hnone name hname
    rw [hnames language m hlast, hfilter]
    rfl
  case described =>
    intro language m hlast
    rw [get?_descriptions_ofUnit, hlast, Option.map_some]
  case nameless =>
    intro language hlast
    by_cases hmetas : u.overlays.metas = []
    · rw [names_ofUnit_of_nil hmetas, SortedMap.get?_insert, SortedMap.get?_empty]
      simp only [hmetas, true_and]
    · rw [get?_names_ofUnit hmetas, hlast, Option.map_none, if_neg fun h => hmetas h.1]
  case undescribed =>
    intro language hlast
    rw [get?_descriptions_ofUnit, hlast, Option.map_none]

end StepTexts

end Questionnaire
