import Mathlib
import Questionnaire.Package.Decode
import Questionnaire.Package.Encode
import Questionnaire.Proofs.Json.Containment
import Questionnaire.Proofs.Package.RoundTrip

/-
  A broken slot of a package is contained.

  Each type with lenient slots, in itself or in its parts, has an enumeration of them (`Hint.Slot`,
  `Presentation.Slot`, `Overlays.Slot`, `CaptureUnit.Slot`, `Package.Slot`), and each slot is
  contained in the decoder of the type: nothing that stands in its place keeps the type from being
  read or changes anything else in it. The slots of a part are lifted to the whole by one lemma for
  each way in: a field of a record, an item of a list, a value of a map, the content of another
  lenient slot. The main statement is `Package.fromValue_replace`.
-/

namespace Questionnaire
open Json Json.Decoder LenientSlot

/-! ## Hints -/

namespace Hint

/-- The lenient slots of a hint: all there are. -/
inductive Slot
  | kind
  | orientation
  | value
  | referenceButtonText
  | showingAttribute
  | placeholder

/-- A slot of a hint by its name. -/
def Slot.lenient : Slot → LenientSlot Hint
  | .kind => (here (option HintKind.decoder) none (ofOption HintKind.toJson)).field "type"
      { get := (·.kind), put := fun h v => { h with kind := v } }
  | .orientation => (here (option text) none ofText?).field "orientation"
      { get := (·.orientation), put := fun h v => { h with orientation := v } }
  | .value => (here scalarText none ofText?).field "value"
      { get := (·.value), put := fun h v => { h with value := v } }
  | .referenceButtonText =>
    (here (option LocalizedText.decoder) none (ofOption LocalizedText.toJson)).field
      "reference_button_text"
      { get := (·.referenceButtonText), put := fun h v => { h with referenceButtonText := v } }
  | .showingAttribute => (here OneOrMany.decoder .none OneOrMany.toJson).field "showing_attribute"
      { get := (·.showingAttribute), put := fun h v => { h with showingAttribute := v } }
  | .placeholder =>
    (here (option LocalizedText.decoder) none (ofOption LocalizedText.toJson)).field "placeholder"
      { get := (·.placeholder), put := fun h v => { h with placeholder := v } }

theorem Slot.contained (slot : Slot) : slot.lenient.Contained Hint.decoder Hint.toJson := by
  cases slot with
  | value => exact contained_scalarText.record {}
  | kind | orientation | referenceButtonText | showingAttribute | placeholder =>
    exact (contained_here _ _ _).record {}

end Hint

/-! ## Presentations -/

namespace Presentation

/-- The lenient slots of a presentation, those of its blocks of hints and of their hints. -/
inductive Slot
  | languages
  | pages
  | pageOrder
  | pageLabels
  | sidebarLabels
  | subheadings
  | title
  | interactions
  | arguments (block : Nat)
  | hint (block : Nat) (key : String) (slot : Hint.Slot)

/-- The blocks of hints of a presentation. -/
def interactionsLens : Lens Presentation (List (SortedMap Hint)) where
  get := interactions
  put p v := { p with interactions := v }

/-- A slot of a presentation by its name. -/
def Slot.lenient : Slot → LenientSlot Presentation
  | .languages => (here (list text) [] ofTexts).field "language"
      { get := (·.languages), put := fun p v => { p with languages := v } }
  | .pages => (here (list PageDefinition.decoder) [] (ofList PageDefinition.toJson)).field "pages"
      { get := (·.pages), put := fun p v => { p with pages := v } }
  | .pageOrder => (here (list text) [] ofTexts).field "page_order"
      { get := (·.pageOrder), put := fun p v => { p with pageOrder := v } }
  | .pageLabels => (here (sortedMap (sortedMap text)) ∅ (ofMap ofTextMap)).field "page_labels"
      { get := (·.pageLabels), put := fun p v => { p with pageLabels := v } }
  | .sidebarLabels => (here (sortedMap (sortedMap text)) ∅ (ofMap ofTextMap)).field "sidebar_label"
      { get := (·.sidebarLabels), put := fun p v => { p with sidebarLabels := v } }
  | .subheadings => (here (sortedMap (sortedMap text)) ∅ (ofMap ofTextMap)).field "subheading"
      { get := (·.subheadings), put := fun p v => { p with subheadings := v } }
  | .title => (here (sortedMap text) ∅ ofTextMap).field "title"
      { get := (·.title), put := fun p v => { p with title := v } }
  | .interactions =>
    (here (list interactionDecoder) [] (ofList interactionToJson)).field "interaction"
      interactionsLens
  | .arguments block =>
    (((here (sortedMap Hint.decoder) ∅ (ofMap Hint.toJson)).field "arguments" .whole).within
      [.index block] (.item block)).field "interaction" interactionsLens
  | .hint block key slot =>
    (((slot.lenient.within [.key key] (.entry key)).field "arguments" .whole).within
      [.index block] (.item block)).field "interaction" interactionsLens

theorem Slot.contained (slot : Slot) :
    slot.lenient.Contained Presentation.decoder Presentation.toJson := by
  cases slot with
  | languages | pages | pageOrder | pageLabels | sidebarLabels | subheadings | title
  | interactions => exact (contained_here _ _ _).record {}
  | arguments block =>
    have hblock : ((here (sortedMap Hint.decoder) ∅ (ofMap Hint.toJson)).field "arguments"
        .whole).Contained interactionDecoder interactionToJson := (contained_here _ _ _).record {}
    exact ((hblock.list block).lenient (List.cons_ne_nil _ _) (.inl rfl)).record {}
  | hint block key slot =>
    have hblock : ((slot.lenient.within [.key key] (.entry key)).field "arguments"
        .whole).Contained interactionDecoder interactionToJson :=
      ((slot.contained.sortedMap key).lenient (List.cons_ne_nil _ _) (.inl rfl)).record {}
    exact ((hblock.list block).lenient (List.cons_ne_nil _ _) (.inl rfl)).record {}

end Presentation

/-! ## Overlays -/

/-- The map of attributes of an overlay in one language. -/
def LanguageOverlay.attributesSlot {α : Type} (key : String) (d : Decoder α) (write : α → Json) :
    LenientSlot (LanguageOverlay α) :=
  (here (sortedMap d) ∅ (ofMap write)).field key
    { get := (·.attributes), put := fun o v => { o with attributes := v } }

theorem LanguageOverlay.contained_attributesSlot {α : Type} {key : String}
    (hkey : "language" ≠ key) (d : Decoder α) (write : α → Json) :
    (attributesSlot key d write).Contained (LanguageOverlay.decoder key d)
      (LanguageOverlay.toJson key write) :=
  (contained_here _ _ _).record {
    keys := show ["language", key].Nodup by simp [hkey]
    written := fun o a => ⟨_, rfl, by simp [hkey], by simp [modifyEntry, hkey, toJson]⟩ }

/-- The map of attributes of an overlay that is nothing else. -/
def attributeOverlaySlot {α : Type} (key : String) (d : Decoder α) (write : α → Json) :
    LenientSlot (SortedMap α) :=
  (here (sortedMap d) ∅ (ofMap write)).field key .whole

theorem contained_attributeOverlaySlot {α : Type} (key : String) (d : Decoder α)
    (write : α → Json) :
    (attributeOverlaySlot key d write).Contained (attributeOverlay key d)
      fun m => .object [(key, ofMap write m)] :=
  (contained_here _ _ _).record {
    keys := List.nodup_singleton _
    written := fun m a => ⟨_, rfl, by simp [Lens.whole], by simp [modifyEntry, Lens.whole]⟩ }

namespace Overlays

/-- The lenient slots of the overlays of a unit: each kind of overlay, and the map of attributes of
each overlay that has one. -/
inductive Slot
  | labels
  | entries
  | information
  | metas
  | cardinality
  | conformance
  | entryCodes
  | characterEncoding
  | format
  | labelMap (index : Nat)
  | entryMap (index : Nat)
  | informationMap (index : Nat)
  | cardinalityMap
  | conformanceMap
  | entryCodesMap
  | characterEncodingMap
  | formatMap

def labelsLens : Lens Overlays (List (LanguageOverlay String)) where
  get := labels
  put o v := { o with labels := v }

def entriesLens : Lens Overlays (List (LanguageOverlay EntryOptions)) where
  get := entries
  put o v := { o with entries := v }

def informationLens : Lens Overlays (List (LanguageOverlay String)) where
  get := information
  put o v := { o with information := v }

def cardinalityLens : Lens Overlays (Option (SortedMap String)) where
  get := cardinality
  put o v := { o with cardinality := v }

def conformanceLens : Lens Overlays (Option (SortedMap (Option String))) where
  get := conformance
  put o v := { o with conformance := v }

def entryCodesLens : Lens Overlays (Option (SortedMap (Option (List String)))) where
  get := entryCodes
  put o v := { o with entryCodes := v }

def characterEncodingLens : Lens Overlays (Option (SortedMap (Option String))) where
  get := characterEncoding
  put o v := { o with characterEncoding := v }

def formatLens : Lens Overlays (Option (SortedMap (Option String))) where
  get := format
  put o v := { o with format := v }

/-- The slot of a kind of overlay that is a list. -/
def listSlot {α : Type} (key mapKey : String) (d : Decoder α) (write : α → Json)
    (lens : Lens Overlays (List (LanguageOverlay α))) : LenientSlot Overlays :=
  (here (list (LanguageOverlay.decoder mapKey d)) []
    (ofList (LanguageOverlay.toJson mapKey write))).field key lens

/-- The slot of the map of attributes of one overlay in a list. -/
def listMapSlot {α : Type} (key mapKey : String) (d : Decoder α) (write : α → Json)
    (lens : Lens Overlays (List (LanguageOverlay α))) (index : Nat) : LenientSlot Overlays :=
  ((LanguageOverlay.attributesSlot mapKey d write).within [.index index] (.item index)).field key
    lens

/-- The slot of a kind of overlay that is only a map of attributes. -/
def singleSlot {α : Type} (key mapKey : String) (d : Decoder α) (write : α → Json)
    (lens : Lens Overlays (Option (SortedMap α))) : LenientSlot Overlays :=
  (here (option (attributeOverlay mapKey d)) none (attributeOverlayToJson mapKey write)).field key
    lens

/-- The slot of that map of attributes. -/
def singleMapSlot {α : Type} (key mapKey : String) (d : Decoder α) (write : α → Json)
    (lens : Lens Overlays (Option (SortedMap α))) : LenientSlot Overlays :=
  ((attributeOverlaySlot mapKey d write).within [] .content).field key lens

/-- A slot of overlays by its name. -/
def Slot.lenient : Slot → LenientSlot Overlays
  | .labels => listSlot "label" "attribute_labels" text .text labelsLens
  | .entries =>
    listSlot "entry" "attribute_entries" EntryOptions.decoder EntryOptions.toJson entriesLens
  | .information => listSlot "information" "attribute_information" text .text informationLens
  | .metas => (here (list MetaOverlay.decoder) [] (ofList MetaOverlay.toJson)).field "meta"
      { get := (·.metas), put := fun o v => { o with metas := v } }
  | .cardinality => singleSlot "cardinality" "attribute_cardinality" text .text cardinalityLens
  | .conformance =>
    singleSlot "conformance" "attribute_conformance" (option text) ofText? conformanceLens
  | .entryCodes => singleSlot "entry_code" "attribute_entry_codes" (option (list text))
      (ofOption ofTexts) entryCodesLens
  | .characterEncoding => singleSlot "character_encoding" "attribute_character_encoding"
      (option text) ofText? characterEncodingLens
  | .format => singleSlot "format" "attribute_formats" (option text) ofText? formatLens
  | .labelMap index => listMapSlot "label" "attribute_labels" text .text labelsLens index
  | .entryMap index => listMapSlot "entry" "attribute_entries" EntryOptions.decoder
      EntryOptions.toJson entriesLens index
  | .informationMap index =>
    listMapSlot "information" "attribute_information" text .text informationLens index
  | .cardinalityMap =>
    singleMapSlot "cardinality" "attribute_cardinality" text .text cardinalityLens
  | .conformanceMap =>
    singleMapSlot "conformance" "attribute_conformance" (option text) ofText? conformanceLens
  | .entryCodesMap => singleMapSlot "entry_code" "attribute_entry_codes" (option (list text))
      (ofOption ofTexts) entryCodesLens
  | .characterEncodingMap => singleMapSlot "character_encoding" "attribute_character_encoding"
      (option text) ofText? characterEncodingLens
  | .formatMap => singleMapSlot "format" "attribute_formats" (option text) ofText? formatLens

theorem Slot.contained (slot : Slot) : slot.lenient.Contained Overlays.decoder Overlays.toJson := by
  cases slot with
  | labels | entries | information | metas | cardinality | conformance | entryCodes
  | characterEncoding | format => exact (contained_here _ _ _).record {}
  | labelMap index | entryMap index | informationMap index =>
    exact (((LanguageOverlay.contained_attributesSlot (by decide) _ _).list index).lenient
      (List.cons_ne_nil _ _) (.inl rfl)).record {}
  | cardinalityMap | conformanceMap | entryCodesMap | characterEncodingMap | formatMap =>
    exact (((contained_attributeOverlaySlot _ _ _).option (List.cons_ne_nil _ _)).lenient
      (List.cons_ne_nil _ _) (.inl rfl)).record {}

/-- All that is in overlays is under a key. -/
theorem Slot.place_eq_cons (slot : Slot) :
    ∃ key place, slot.lenient.place = .key key :: place := by
  cases slot <;> exact ⟨_, _, rfl⟩

/-- As records of lenient slots, overlays are never given up. -/
theorem succeeds {j : Json} (hj : j.Distinct) {slot : Slot}
    (hat : (j.at? slot.lenient.place).isSome) :
    ∃ o, (Overlays.decoder.fromValue j).outcome = .ok o := by
  obtain ⟨key, place, hplace⟩ := slot.place_eq_cons
  rw [hplace] at hat
  refine record_succeeds ?_ hj hat
  simp only [List.forall_mem_cons]
  and_intros
  all_goals first
    | exact neverFails_lenient
    | exact List.forall_mem_nil _

end Overlays

/-! ## Capture units -/

/-- The attributes of a capture base. -/
def CaptureBase.attributesSlot : LenientSlot CaptureBase :=
  (here jsonEntries [] .object).field "attributes"
    { get := (·.attributes), put := fun b v => { b with attributes := v } }

/-- The flagged attributes of a capture base. -/
def CaptureBase.flaggedSlot : LenientSlot CaptureBase :=
  (here (list json) [] .array).field "flagged_attributes"
    { get := (·.flaggedAttributes), put := fun b v => { b with flaggedAttributes := v } }

namespace CaptureUnit

/-- The lenient slots of a capture unit. -/
inductive Slot
  | attributes
  | flaggedAttributes
  | overlays
  | overlay (slot : Overlays.Slot)

def captureBaseLens : Lens CaptureUnit CaptureBase where
  get := captureBase
  put u v := { u with captureBase := v }

def overlaysLens : Lens CaptureUnit Overlays where
  get := overlays
  put u v := { u with overlays := v }

/-- A slot of a capture unit by its name. -/
def Slot.lenient : Slot → LenientSlot CaptureUnit
  | .attributes => CaptureBase.attributesSlot.field "capture_base" captureBaseLens
  | .flaggedAttributes => CaptureBase.flaggedSlot.field "capture_base" captureBaseLens
  | .overlays => (here Overlays.decoder {} Overlays.toJson).field "overlays" overlaysLens
  | .overlay slot => slot.lenient.field "overlays" overlaysLens

theorem Slot.contained (slot : Slot) :
    slot.lenient.Contained CaptureUnit.decoder CaptureUnit.toJson := by
  cases slot with
  | attributes =>
    have hbase : CaptureBase.attributesSlot.Contained CaptureBase.decoder CaptureBase.toJson :=
      (contained_here _ _ _).record {}
    exact hbase.record {}
  | flaggedAttributes =>
    have hbase : CaptureBase.flaggedSlot.Contained CaptureBase.decoder CaptureBase.toJson :=
      (contained_here _ _ _).record {}
    exact hbase.record {}
  | overlays => exact (contained_here _ _ _).record {}
  | overlay slot =>
    have hplace : slot.lenient.place ≠ [] := by
      obtain ⟨key, place, hplace⟩ := slot.place_eq_cons
      rw [hplace]
      exact List.cons_ne_nil _ _
    exact (slot.contained.lenient hplace (.inr fun j hj hat => Overlays.succeeds hj hat)).record {}

end CaptureUnit

/-! ## Packages -/

namespace Package

/-- The lenient slots of a package, at any depth: the extensions, the presentations among them,
those of each presentation, and those of the main unit and of each dependency. -/
inductive Slot
  | extensions
  | form
  | presentation (index : Nat) (slot : Presentation.Slot)
  | main (slot : CaptureUnit.Slot)
  | dependency (index : Nat) (slot : CaptureUnit.Slot)

def presentationsLens : Lens Package (List Presentation) where
  get := presentations
  put p v := { p with presentations := v }

def bundleLens : Lens Package Bundle where
  get := bundle
  put p v := { p with bundle := v }

def mainLens : Lens Bundle CaptureUnit where
  get := Bundle.main
  put b v := { b with main := v }

def dependenciesLens : Lens Bundle (List CaptureUnit) where
  get := Bundle.dependencies
  put b v := { b with dependencies := v }

/-- The extensions of a package as JSON. -/
def extensionsToJson (presentations : List Presentation) : Json :=
  .object [("form", ofList Presentation.toJson presentations)]

/-- A slot of a package by its name. -/
def Slot.lenient : Slot → LenientSlot Package
  | .extensions => (here extensionsDecoder [] extensionsToJson).field "extensions" presentationsLens
  | .form => ((here (list Presentation.decoder) [] (ofList Presentation.toJson)).field "form"
      .whole).field "extensions" presentationsLens
  | .presentation index slot => ((slot.lenient.within [.index index] (.item index)).field "form"
      .whole).field "extensions" presentationsLens
  | .main slot => (slot.lenient.field "bundle" mainLens).field "oca_bundle" bundleLens
  | .dependency index slot => ((slot.lenient.within [.index index] (.item index)).field
      "dependencies" dependenciesLens).field "oca_bundle" bundleLens

/-- A slot of the extensions, which as a record of lenient slots are never given up. -/
theorem contained_extensions {slot : LenientSlot (List Presentation)}
    (h : slot.Contained (lenient (list Presentation.decoder) []) (ofList Presentation.toJson)) :
    ((slot.field "form" .whole).field "extensions" presentationsLens).Contained Package.decoder
      Package.toJson := by
  have hextensions : (slot.field "form" .whole).Contained extensionsDecoder extensionsToJson :=
    h.record {}
  refine (hextensions.lenient (List.cons_ne_nil _ _) (.inr fun j hj hat => ?_)).record {}
  exact record_succeeds (List.forall_mem_singleton.2 neverFails_lenient) hj hat

theorem Slot.contained (slot : Slot) : slot.lenient.Contained Package.decoder Package.toJson := by
  cases slot with
  | extensions => exact (contained_here _ _ extensionsToJson).record {}
  | form => exact contained_extensions (contained_here _ _ _)
  | presentation index slot =>
    exact contained_extensions
      ((slot.contained.list index).lenient (List.cons_ne_nil _ _) (.inl rfl))
  | main slot =>
    have hbundle : (slot.lenient.field "bundle" mainLens).Contained Bundle.decoder Bundle.toJson :=
      slot.contained.record {}
    exact hbundle.record {}
  | dependency index slot =>
    have hbundle : ((slot.lenient.within [.index index] (.item index)).field "dependencies"
        dependenciesLens).Contained Bundle.decoder Bundle.toJson :=
      (slot.contained.list index).record {}
    exact hbundle.record {}

/-- Whatever value is given for a lenient slot of a document from which a package is read, a package
is still read. Its slot holds what is decoded from the value, or its default where the value is null
or nothing is decoded, and the package is the same otherwise: at every place that is neither inside
nor around the slot, it is written as before. A slot that the package does not have, since a slot
around it was given up, it still does not have. The document has no key twice in an object: of
repeated keys a parsed document keeps one. -/
theorem fromValue_replace (slot : Slot) {j : Json} (hj : j.Distinct)
    (hslot : (j.at? slot.lenient.place).isSome) {p : Package}
    (hread : (Package.decoder.fromValue j).outcome = .ok p) (new : Json) :
    ∃ held p', (Package.decoder.fromValue (j.replace slot.lenient.place new)).outcome = .ok p' ∧
      (slot.lenient.decoder.value? (resolve new) = some held ∨
        (resolve new = .null ∨ slot.lenient.decoder.value? (resolve new) = none) ∧
          held = slot.lenient.default) ∧
      p' = slot.lenient.put held p ∧
      slot.lenient.get? p' = (slot.lenient.get? p).map (fun _ => held) ∧
      p'.toJson.at? slot.lenient.place =
        (p.toJson.at? slot.lenient.place).map (fun _ => slot.lenient.write held) ∧
      ∀ place, ¬ slot.lenient.place <+: place → ¬ place <+: slot.lenient.place →
        p'.toJson.at? place = p.toJson.at? place := by
  refine ⟨slot.lenient.read new, slot.lenient.put (slot.lenient.read new) p, ?_, held_eq_or _ _ _,
    rfl, slot.lenient.part.get?_modify _ p, ?_, fun place hin haround => ?_⟩
  · rw [slot.contained.read_replace j new hj hslot, hread]
    rfl
  · rw [slot.contained.write_put]
    exact at?_replace_self _ _ _
  · rw [slot.contained.write_put]
    exact at?_replace_of_apart _ hin haround _

theorem distinct_looseDocument : looseDocument.Distinct := by
  simp [looseDocument, distinct_object_iff, distinct_array_iff, Distinct.text, Distinct.null,
    ofNat, Distinct.number]

/-- The type of the hint in the loose document. -/
def looseSlot : Slot := .presentation 0 (.hint 0 "genre" .kind)

theorem at?_looseSlot : (looseDocument.at? looseSlot.lenient.place).isSome := rfl

theorem get?_looseSlot :
    looseSlot.lenient.get? loosePackage = some (some (.names ["select"])) := rfl

theorem fromValue_replace_loose :
    looseDocument.Distinct ∧ (looseDocument.at? looseSlot.lenient.place).isSome ∧
      (Package.decoder.fromValue looseDocument).outcome = .ok loosePackage ∧
      ∃ p', (Package.decoder.fromValue
          (looseDocument.replace looseSlot.lenient.place (.bool true))).outcome = .ok p' ∧
        p' = looseSlot.lenient.put none loosePackage ∧ looseSlot.lenient.get? p' = some none := by
  have hread : (Package.decoder.fromValue looseDocument).outcome = .ok loosePackage := by
    rw [fromValue_looseDocument]
  obtain ⟨held, p', hnew, hheld, hput, hget, -⟩ :=
    fromValue_replace looseSlot distinct_looseDocument at?_looseSlot hread (.bool true)
  -- A truth value is no type of a hint, so the slot falls back to its default.
  have hfails : looseSlot.lenient.decoder.value? (resolve (.bool true)) = none := rfl
  obtain rfl : held = none := by
    rcases hheld with hheld | ⟨-, hheld⟩
    · rw [hfails] at hheld
      cases hheld
    · exact hheld
  rw [get?_looseSlot] at hget
  exact ⟨distinct_looseDocument, at?_looseSlot, hread, p', hnew, hput, hget⟩

end Package

end Questionnaire
