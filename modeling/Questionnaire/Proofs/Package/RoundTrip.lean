import Mathlib
import Questionnaire.Package.Decode
import Questionnaire.Proofs.Json.Reads

/-
  A package that was read is written in a form that reads back as it.

  Each part of a package reads back what is written for it (`Overlays.reads`, `Hint.reads`,
  `Presentation.reads` and so on), whatever the part holds. The one exception is what a capture base
  keeps as it was declared: JSON with a repeated key would come back without it. But reading
  resolves repeated keys, so no package that was read has any (`Package.yields_distinct`).
-/

namespace Questionnaire
open Json Json.Decoder

/-! ## Options and overlays -/

theorem EntryOption.reads (o : EntryOption) : Reads EntryOption.decoder o.toJson o :=
  reads_record (by decide) (.slot (reads_text _) (.slot (reads_text _) .done))

theorem EntryOptions.reads (options : EntryOptions) :
    Reads EntryOptions.decoder options.toJson options := by
  have hlist : Reads (list EntryOption.listedDecoder) options.toJson options :=
    reads_list fun o _ => reads_firstOf_tail rfl
      (reads_firstOf_head o.reads.distinct o.reads.value?)
  exact reads_firstOf_head hlist.distinct hlist.value?

theorem LanguageOverlay.reads {α : Type} {key : String} {d : Decoder α} {write : α → Json}
    (hkey : ["language", key].Nodup) (o : LanguageOverlay α) (h : ∀ a, Reads d (write a) a) :
    Reads (LanguageOverlay.decoder key d) (o.toJson key write) o :=
  reads_record hkey
    (.slot (reads_text _) (.slot (reads_lenient_sortedMap fun e _ => h e.2) .done))

theorem MetaOverlay.reads (o : MetaOverlay) : Reads MetaOverlay.decoder o.toJson o :=
  reads_record (by decide)
    (.slot (reads_text _) (.slot (reads_text? _) (.slot (reads_text? _) .done)))

/-- An overlay that is only a map of attributes. -/
theorem reads_attributeOverlay {α : Type} {key : String} {d : Decoder α} {write : α → Json}
    (o : Option (SortedMap α)) (h : ∀ a, Reads d (write a) a) :
    Reads (lenient (option (attributeOverlay key d)) none) (attributeOverlayToJson key write o) o :=
  reads_lenient_option fun _ _ => ⟨reads_record (List.nodup_singleton _)
    (.slot (reads_lenient_sortedMap fun e _ => h e.2) .done), object_ne_null _⟩

theorem Overlays.reads (o : Overlays) : Reads Overlays.decoder o.toJson o := by
  refine reads_record (by decide) ?_
  exact .slot (reads_lenient_list fun o _ => o.reads (by decide) reads_text) <|
    .slot (reads_lenient_list fun o _ => o.reads (by decide) EntryOptions.reads) <|
    .slot (reads_lenient_list fun o _ => o.reads (by decide) reads_text) <|
    .slot (reads_lenient_list fun o _ => o.reads) <|
    .slot (reads_attributeOverlay _ reads_text) <|
    .slot (reads_attributeOverlay _ reads_text?) <|
    .slot (reads_attributeOverlay _ fun codes =>
      reads_option fun codes _ => ⟨reads_texts codes, array_ne_null _⟩) <|
    .slot (reads_attributeOverlay _ reads_text?) <|
    .slot (reads_attributeOverlay _ reads_text?) .done

/-! ## Capture units -/

/-- What a capture base keeps as it was declared has no key twice. -/
structure CaptureBase.Distinct (b : CaptureBase) : Prop where
  attributes : (Json.object b.attributes).Distinct
  flagged : ∀ j ∈ b.flaggedAttributes, j.Distinct

theorem CaptureBase.reads {b : CaptureBase} (h : b.Distinct) :
    Reads CaptureBase.decoder b.toJson b := by
  have hflagged : Reads (list json) (.array b.flaggedAttributes) b.flaggedAttributes := by
    have hlist := @reads_list _ json id b.flaggedAttributes fun j hj => reads_json (h.flagged j hj)
    rwa [ofList, List.map_id] at hlist
  refine reads_record (by decide) ?_
  exact .slot (reads_text _) <| .slot (reads_text _) <|
    .slot (reads_lenient (reads_jsonEntries h.attributes) (object_ne_null _)) <|
    .slot (reads_text _) <| .slot (reads_lenient hflagged (array_ne_null _)) .done

theorem CaptureBase.yields_distinct : Yields CaptureBase.decoder Distinct := by
  refine yields_record ⟨distinct_empty, List.forall_mem_nil _⟩ ?_
  simp only [List.forall_mem_cons]
  refine ⟨keeps_of_put fun _ _ h => ⟨h.1, h.2⟩, keeps_of_put fun _ _ h => ⟨h.1, h.2⟩, ?_,
    keeps_of_put fun _ _ h => ⟨h.1, h.2⟩, ?_, List.forall_mem_nil _⟩
  · exact keeps_slot (yields_lenient yields_jsonEntries distinct_empty)
      fun _ _ h ha => ⟨ha, h.2⟩
  · exact keeps_slot (yields_lenient (yields_list yields_json) (List.forall_mem_nil _))
      fun _ _ h ha => ⟨h.1, ha⟩

theorem CaptureUnit.yields_distinct :
    Yields CaptureUnit.decoder fun u => u.captureBase.Distinct := by
  refine yields_record ⟨distinct_empty, List.forall_mem_nil _⟩ ?_
  simp only [List.forall_mem_cons]
  refine ⟨keeps_of_put fun _ _ h => h, keeps_of_put fun _ _ h => h, ?_,
    keeps_of_put fun _ _ h => h, List.forall_mem_nil _⟩
  exact keeps_slot CaptureBase.yields_distinct fun _ _ _ ha => ha

theorem CaptureUnit.reads {u : CaptureUnit} (h : u.captureBase.Distinct) :
    Reads CaptureUnit.decoder u.toJson u := by
  refine reads_record (by decide) ?_
  exact .slot (reads_text _) <| .slot (reads_text _) <| .slot (CaptureBase.reads h) <|
    .slot (reads_lenient u.overlays.reads (object_ne_null _)) .done

/-- What the units of a bundle keep as it was declared has no key twice. -/
structure Bundle.Distinct (b : Bundle) : Prop where
  main : b.main.captureBase.Distinct
  dependencies : ∀ u ∈ b.dependencies, u.captureBase.Distinct

theorem Bundle.yields_distinct : Yields Bundle.decoder Distinct := by
  refine yields_record ⟨⟨distinct_empty, List.forall_mem_nil _⟩, List.forall_mem_nil _⟩ ?_
  simp only [List.forall_mem_cons]
  refine ⟨keeps_of_put fun _ _ h => ⟨h.1, h.2⟩, ?_, ?_, List.forall_mem_nil _⟩
  · exact keeps_slot CaptureUnit.yields_distinct fun _ _ h ha => ⟨ha, h.2⟩
  · exact keeps_slot (yields_list CaptureUnit.yields_distinct) fun _ _ h ha => ⟨h.1, ha⟩

theorem Bundle.reads {b : Bundle} (h : b.Distinct) : Reads Bundle.decoder b.toJson b := by
  refine reads_record (by decide) ?_
  exact .slot (reads_text _) <| .slot (CaptureUnit.reads h.main) <|
    .slot (reads_list fun u hu => CaptureUnit.reads (h.dependencies u hu)) .done

/-! ## Presentations -/

theorem LocalizedText.reads (t : LocalizedText) : Reads LocalizedText.decoder t.toJson t := by
  cases t with
  | plain s => exact reads_firstOf_head (.text s) rfl
  | perLanguage texts =>
    have hmap := reads_textMap texts
    exact reads_firstOf_tail rfl
      (reads_firstOf_head hmap.distinct (congrArg (Option.map _) hmap.value?))

theorem LocalizedText.toJson_ne_null (t : LocalizedText) : t.toJson ≠ .null := by
  cases t with
  | plain s => exact text_ne_null s
  | perLanguage texts => exact object_ne_null _

theorem reads_lenient_localizedText? (t : Option LocalizedText) :
    Reads (lenient (option LocalizedText.decoder) none) (ofOption LocalizedText.toJson t) t :=
  reads_lenient_option fun t _ => ⟨t.reads, t.toJson_ne_null⟩

theorem OneOrMany.reads (o : OneOrMany) :
    Reads (lenient OneOrMany.decoder .none) o.toJson o := by
  cases o with
  | none => exact reads_lenient_null _ _
  | one s =>
    exact reads_lenient (reads_firstOf_tail rfl (reads_firstOf_head (.text s) rfl)) (text_ne_null s)
  | many ss =>
    have hlist := reads_texts ss
    refine reads_lenient (reads_firstOf_tail rfl (reads_firstOf_tail rfl ?_)) (array_ne_null _)
    exact reads_firstOf_head hlist.distinct (congrArg (Option.map _) hlist.value?)

theorem HintKind.reads (k : HintKind) : Reads HintKind.decoder k.toJson k := by
  cases k with
  | name s => exact reads_firstOf_head (.text s) rfl
  | names ss =>
    have hlist := reads_texts ss
    exact reads_firstOf_tail rfl
      (reads_firstOf_head hlist.distinct (congrArg (Option.map _) hlist.value?))
  | reference kind target =>
    have hrecord : Reads HintKind.referenceDecoder (HintKind.reference kind target).toJson
        (kind, target) :=
      reads_record (by decide) (.slot (reads_text _) (.slot (reads_text? _) .done))
    refine reads_firstOf_tail rfl (reads_firstOf_tail rfl ?_)
    exact reads_firstOf_head hrecord.distinct (congrArg (Option.map _) hrecord.value?)

theorem HintKind.toJson_ne_null (k : HintKind) : k.toJson ≠ .null := by
  cases k with
  | name s => exact text_ne_null s
  | names ss => exact array_ne_null _
  | reference kind target => exact object_ne_null _

theorem Hint.reads (h : Hint) : Reads Hint.decoder h.toJson h := by
  refine reads_record (by decide) ?_
  exact .slot (reads_lenient_option fun k _ => ⟨k.reads, k.toJson_ne_null⟩) <|
    .slot (reads_lenient_text? _) <| .slot (reads_scalarText _) <|
    .slot (reads_lenient_localizedText? _) <| .slot h.showingAttribute.reads <|
    .slot (reads_lenient_localizedText? _) .done

/-- A block of hints. -/
theorem reads_interaction (hints : SortedMap Hint) :
    Reads interactionDecoder (interactionToJson hints) hints :=
  reads_record (by decide)
    (.slot (reads_lenient_sortedMap fun e _ => e.2.reads) .done)

theorem OrderEntry.reads (e : OrderEntry) : Reads OrderEntry.decoder e.toJson e := by
  cases e with
  | single id => exact reads_firstOf_head (.text id) rfl
  | grouped key ids =>
    have hrecord : Reads OrderEntry.sectionDecoder (OrderEntry.grouped key ids).toJson (key, ids) :=
      reads_record (by decide) (.slot (reads_text _) (.slot (reads_texts _) .done))
    refine reads_firstOf_tail rfl ?_
    exact reads_firstOf_head hrecord.distinct (congrArg (Option.map _) hrecord.value?)

theorem PageDefinition.reads (d : PageDefinition) : Reads PageDefinition.decoder d.toJson d :=
  reads_record (by decide)
    (.slot (reads_text _) (.slot (reads_list fun e _ => e.reads) .done))

theorem reads_keyedTexts (texts : LanguageMap (SortedMap String)) :
    Reads keyedTexts (ofMap ofTextMap texts) texts :=
  reads_lenient_sortedMap fun e _ => reads_textMap e.2

theorem Presentation.reads (p : Presentation) : Reads Presentation.decoder p.toJson p := by
  refine reads_record (by decide) ?_
  exact .slot (reads_text _) <| .slot (reads_text _) <|
    .slot (reads_lenient_list fun s _ => reads_text s) <|
    .slot (reads_lenient_list fun d _ => d.reads) <|
    .slot (reads_lenient_list fun s _ => reads_text s) <|
    .slot (reads_keyedTexts _) <| .slot (reads_keyedTexts _) <| .slot (reads_keyedTexts _) <|
    .slot (reads_lenient_sortedMap fun e _ => reads_text e.2) <|
    .slot (reads_lenient_list fun hints _ => reads_interaction hints) .done

/-! ## Packages -/

theorem Package.reads {p : Package} (h : p.bundle.Distinct) :
    Reads Package.decoder p.toJson p := by
  have hextensions : Reads extensionsDecoder
      (.object [("form", ofList Presentation.toJson p.presentations)]) p.presentations :=
    reads_record (by decide)
      (.slot (reads_lenient_list fun q _ => q.reads) .done)
  refine reads_record (by decide) ?_
  exact .slot (reads_text _) <| .slot (reads_text _) <| .slot (Bundle.reads h) <|
    .slot (reads_lenient hextensions (object_ne_null _)) .done

theorem Package.yields_distinct : Yields Package.decoder fun p => p.bundle.Distinct := by
  refine yields_record ⟨⟨distinct_empty, List.forall_mem_nil _⟩, List.forall_mem_nil _⟩ ?_
  simp only [List.forall_mem_cons]
  refine ⟨keeps_of_put fun _ _ h => h, keeps_of_put fun _ _ h => h, ?_,
    keeps_of_put fun _ _ h => h, List.forall_mem_nil _⟩
  exact keeps_slot Bundle.yields_distinct fun _ _ _ ha => ha

/-- Whatever value a package was read from, the package is written as a value that reads back as
that package and leaves no notice. -/
theorem Package.fromValue_toJson {j : Json} {p : Package}
    (h : (Package.decoder.fromValue j).outcome = .ok p) :
    Package.decoder.fromValue p.toJson = ⟨.ok p, []⟩ :=
  (Package.reads (Package.yields_distinct .value j.reading p h)).fromValue

/-- A document with short forms, missing and null slots, a broken overlay and a bare number. -/
def looseDocument : Json := .object [
  ("d", .text "pack"),
  ("oca_bundle", .object [("bundle", .object [
    ("capture_base", .object [
      ("attributes", .object [("genre", .text "Text")]), ("flagged_attributes", .null)]),
    ("overlays", .object [
      ("label", .text "not a list"),
      ("entry", .array [.object [
        ("attribute_entries", .object [("genre", .object [("one", ofNat 1)])])]])])])]),
  ("extensions", .object [("form", .array [.object [
    ("interaction", .array [.object [("arguments", .object [("genre", .object [
      ("type", .array [.text "select"]), ("value", ofNat 3)])])]])]])])]

/-- The package that is read from it. -/
def loosePackage : Package where
  digest := "pack"
  bundle := {
    main := {
      captureBase := { attributes := [("genre", .text "Text")] }
      overlays := { entries := [⟨"", SortedMap.empty.insert "genre" [⟨"one", "1"⟩]⟩] } } }
  presentations := [
    { interactions := [SortedMap.empty.insert "genre" {
        kind := some (.names ["select"])
        value := some "3" }] }]

theorem fromValue_looseDocument :
    Package.decoder.fromValue looseDocument = ⟨.ok loosePackage, [.malformedSlot]⟩ := by
  cbv

theorem Package.fromValue_toJson_loose :
    Package.decoder.fromValue looseDocument = ⟨.ok loosePackage, [.malformedSlot]⟩ ∧
      Package.decoder.fromValue loosePackage.toJson = ⟨.ok loosePackage, []⟩ := by
  have hread : (Package.decoder.fromValue looseDocument).outcome = .ok loosePackage := by
    rw [fromValue_looseDocument]
  exact ⟨fromValue_looseDocument, Package.fromValue_toJson hread⟩

end Questionnaire
