import Questionnaire.Proofs.Json.Text
import Questionnaire.Proofs.Package.RoundTrip
import Questionnaire.Settings
import Questionnaire.Step.Serial

/-
  The steps of a form read back as themselves, from the value and from the text they are written as.

  An entry that is left out stands for the value that its slot has before anything is read into it
  (`Fills.optionEntry`, `Fills.listEntry`, `Fills.mapEntry`). Steps are at most eleven containers
  deep, down to a single option, and hold no number but the bounds of a cardinality (`Step.fits`),
  so their text is within what the reader goes through.
-/

namespace Questionnaire
open Json Json.Decoder

namespace Json.Decoder

variable {α σ : Type}

/-! ## Entries that may be left out -/

section LeftOut

variable {slots : List (Slot σ)} {es : List (String × Json)} {s s' : σ} {key : String}
  {d : Decoder α} {write : α → Json}

theorem Fills.optionEntry {put : σ → Option α → σ} {o : Option α} (hnone : put s none = s)
    (hread : ∀ a ∈ o, Reads d (write a) a ∧ write a ≠ .null) (h : Fills slots es (put s o) s') :
    Fills (optional key (option d) put :: slots) ( entry? key write o ++ es) s s' := by
  cases o with
  | none =>
    rw [hnone] at h
    exact .leftOut optional_ne_required h
  | some a => exact .slot (reads_option hread) h

theorem Fills.listEntry {put : σ → List α → σ} {as : List α} (hnil : put s [] = s)
    (hread : ∀ a ∈ as, Reads d (write a) a) (h : Fills slots es (put s as) s') :
    Fills (optional key (list d) put :: slots) (listEntry key write as ++ es) s s' := by
  rw [Json.listEntry]
  split
  · next hempty =>
    rw [List.isEmpty_iff.1 hempty, hnil] at h
    exact .leftOut optional_ne_required h
  · exact .slot (reads_list hread) h

theorem Fills.mapEntry {put : σ → SortedMap α → σ} {m : SortedMap α} (hempty : put s ∅ = s)
    (hread : ∀ e ∈ m.entries, Reads d (write e.2) e.2) (h : Fills slots es (put s m) s') :
    Fills (optional key (sortedMap d) put :: slots) (mapEntry key write m ++ es) s s' := by
  rw [Json.mapEntry]
  split
  · next hm =>
    rw [SortedMap.ext_get? (n := ∅) fun k => SortedMap.get?_of_isEmpty hm k, hempty] at h
    exact .leftOut optional_ne_required h
  · exact .slot (reads_sortedMap hread) h

end LeftOut

theorem reads_oneOf {names : List (String × α)} {name : String} {a : α}
    (h : names.lookup name = some a) : Reads (oneOf names) (.text name) a := by
  refine ⟨.text name, fun _ => ?_⟩
  rw [reading, oneOf, named, h]

end Json.Decoder

/-! ## Fields -/

theorem FieldKind.reads (k : FieldKind) : Reads FieldKind.decoder k.toJson k :=
  reads_oneOf (by cases k <;> decide)

theorem Orientation.reads (o : Orientation) : Reads Orientation.decoder o.toJson o := by
  cases o <;> exact reads_oneOf (by decide)

theorem Conformance.reads (c : Conformance) : Reads Conformance.decoder c.toJson c := by
  cases c <;> exact reads_oneOf (by decide)

theorem reads_word64 (n : UInt64) : Reads word64 (ofNat n.toNat) n := by
  refine ⟨.number _, fun _ => ?_⟩
  rw [word64, ofNat, reading, naturalBelow, if_pos n.toNat_lt_size, Decoded.pure_bind,
    UInt64.ofNat_toNat]

theorem Cardinality.reads (c : Cardinality) : Reads Cardinality.decoder c.toJson c :=
  reads_record (by decide) (.slot (reads_word64 _) (.slot (reads_word64 _) .done))

theorem AnswerRules.reads (r : AnswerRules) : Reads AnswerRules.decoder r.toJson r := by
  rw [AnswerRules.toJson, ← List.append_nil (_ ++ _)]
  simp only [List.cons_append, List.append_assoc]
  refine reads_record (by decide) ?_
  exact .slot r.conformance.reads <|
    .optionEntry rfl (fun s _ => ⟨reads_text s, text_ne_null s⟩) <|
    .listEntry rfl (fun s _ => reads_text s) <|
    .optionEntry rfl (fun s _ => ⟨reads_text s, text_ne_null s⟩) <|
    .optionEntry rfl (fun c _ => ⟨c.reads, object_ne_null _⟩) .done

theorem Orientation.toJson_ne_null (o : Orientation) : o.toJson ≠ .null := by
  cases o <;> exact text_ne_null _

theorem Field.reads (f : Field) : Reads Field.decoder f.toJson f := by
  rw [Field.toJson]
  simp only [List.cons_append, List.nil_append, List.append_assoc]
  refine reads_record (by decide) ?_
  exact .slot (reads_text _) <| .slot (reads_textMap _) <|
    .mapEntry rfl (fun e _ => e.2.reads) <|
    .mapEntry rfl (fun e _ => reads_text e.2) <|
    .slot f.kind.reads <|
    .optionEntry rfl (fun o _ => ⟨o.reads, o.toJson_ne_null⟩) <|
    .optionEntry rfl (fun s _ => ⟨reads_text s, text_ne_null s⟩) <|
    .optionEntry rfl (fun s _ => ⟨reads_text s, text_ne_null s⟩) <|
    .optionEntry rfl (fun t _ => ⟨t.reads, t.toJson_ne_null⟩) <|
    .listEntry rfl (fun s _ => reads_text s) <|
    .optionEntry rfl (fun t _ => ⟨t.reads, t.toJson_ne_null⟩) <|
    .slot f.rules.reads .done

/-! ## Steps -/

theorem Section.reads (s : Section) : Reads Section.decoder s.toJson s := by
  rw [Section.toJson]
  simp only [List.cons_append, List.nil_append]
  refine reads_record (by decide) ?_
  exact .slot (reads_text _) <| .mapEntry rfl (fun e _ => reads_text e.2) <|
    .slot (reads_list fun f _ => f.reads) .done

theorem Page.reads (p : Page) : Reads Page.decoder p.toJson p := by
  rw [Page.toJson]
  simp only [List.cons_append, List.nil_append, List.append_assoc]
  refine reads_record (by decide) ?_
  exact .slot (reads_text _) <| .slot (reads_textMap _) <|
    .mapEntry rfl (fun e _ => reads_text e.2) <|
    .mapEntry rfl (fun e _ => reads_text e.2) <|
    .slot (reads_list fun s _ => s.reads) <| .slot (reads_text _) .done

theorem Step.reads (s : Step) : Reads Step.decoder s.toJson s := by
  rw [Step.toJson]
  simp only [List.cons_append, List.nil_append]
  refine reads_record (by decide) ?_
  exact .slot (reads_text _) <| .slot (reads_textMap _) <| .slot (reads_textMap _) <|
    .optionEntry rfl (fun texts _ => ⟨reads_textMap texts, object_ne_null _⟩) <|
    .slot (reads_text? _) <| .slot (reads_list fun p _ => p.reads) .done

/-! ## Nesting -/

section Fits

variable {α : Type} {n : Nat} {write : α → Json} {key : String}

theorem fits_optionEntry {o : Option α} (h : ∀ a, Fits n (write a)) :
    ∀ e ∈ entry? key write o, Fits n e.2 := by
  cases o with
  | none => exact List.forall_mem_nil _
  | some a => exact List.forall_mem_singleton.2 (h a)

theorem fits_listEntry {as : List α} (h : ∀ a, Fits n (write a)) :
    ∀ e ∈ listEntry key write as, Fits (n + 1) e.2 := by
  rw [listEntry]
  split
  · exact List.forall_mem_nil _
  · exact List.forall_mem_singleton.2 (fits_ofList fun a _ => h a)

theorem fits_mapEntry {m : SortedMap α} (h : ∀ a, Fits n (write a)) :
    ∀ e ∈ mapEntry key write m, Fits (n + 1) e.2 := by
  rw [mapEntry]
  split
  · exact List.forall_mem_nil _
  · exact List.forall_mem_singleton.2 (fits_ofMap h)

end Fits

theorem EntryOptions.fits {n : Nat} (options : EntryOptions) : Fits (n + 2) options.toJson := by
  refine fits_ofList fun o _ => .object ?_
  simp only [List.forall_mem_cons]
  exact ⟨.text _, .text _, List.forall_mem_nil _⟩

theorem LocalizedText.fits {n : Nat} (t : LocalizedText) : Fits (n + 1) t.toJson := by
  cases t with
  | plain s => exact .text s
  | perLanguage texts => exact fits_ofMap .text

theorem Cardinality.fits {n : Nat} (c : Cardinality) : Fits (n + 1) c.toJson := by
  refine .object ?_
  simp only [List.forall_mem_cons]
  exact ⟨.natural c.min.toNat_lt_size, .natural c.max.toNat_lt_size, List.forall_mem_nil _⟩

theorem AnswerRules.fits {n : Nat} (r : AnswerRules) : Fits (n + 2) r.toJson := by
  have hconformance : Fits (n + 1) r.conformance.toJson := by
    cases r.conformance <;> exact .text _
  refine .object ?_
  simp only [List.forall_mem_append, List.forall_mem_cons, and_assoc]
  exact ⟨hconformance, fits_optionEntry .text, fits_listEntry .text, fits_optionEntry .text,
    fits_optionEntry Cardinality.fits⟩

theorem Field.fits {n : Nat} (f : Field) : Fits (n + 4) f.toJson := by
  have horientation (o : Orientation) : Fits (n + 3) o.toJson := by
    cases o <;> exact .text _
  refine .object ?_
  simp only [List.forall_mem_append, List.forall_mem_cons, and_assoc]
  exact ⟨.text _, fits_ofMap .text, List.forall_mem_nil _, fits_mapEntry EntryOptions.fits,
    fits_mapEntry .text, .text _, List.forall_mem_nil _, fits_optionEntry horientation,
    fits_optionEntry .text, fits_optionEntry .text, fits_optionEntry LocalizedText.fits,
    fits_listEntry .text, fits_optionEntry LocalizedText.fits, f.rules.fits,
    List.forall_mem_nil _⟩

theorem Section.fits {n : Nat} (s : Section) : Fits (n + 6) s.toJson := by
  refine .object ?_
  simp only [List.forall_mem_append, List.forall_mem_cons, and_assoc]
  exact ⟨.text _, List.forall_mem_nil _, fits_mapEntry .text, fits_ofList fun f _ => f.fits,
    List.forall_mem_nil _⟩

theorem Page.fits {n : Nat} (p : Page) : Fits (n + 8) p.toJson := by
  refine .object ?_
  simp only [List.forall_mem_append, List.forall_mem_cons, and_assoc]
  exact ⟨.text _, fits_ofMap .text, List.forall_mem_nil _, fits_mapEntry .text,
    fits_mapEntry .text, fits_ofList fun s _ => s.fits, .text _, List.forall_mem_nil _⟩

theorem Step.fits {n : Nat} (s : Step) : Fits (n + 10) s.toJson := by
  have hparent : Fits (n + 9) (ofText? s.parent) := by
    cases s.parent
    · exact .null
    · exact .text _
  refine .object ?_
  simp only [List.forall_mem_append, List.forall_mem_cons, and_assoc]
  exact ⟨.text _, fits_ofMap .text, fits_ofMap .text, List.forall_mem_nil _,
    fits_optionEntry fun _ => fits_ofMap .text, hparent, fits_ofList fun p _ => p.fits,
    List.forall_mem_nil _⟩

/-! ## Documents -/

/-- Steps, whatever they hold, read back as they are from the value that is written for them, and
from its text in the layout of any settings, with a line break behind it or without. -/
theorem Step.list_roundTrip (steps : List Step) :
    (list Step.decoder).fromValue (ofList Step.toJson steps) = ⟨.ok steps, []⟩ ∧
      ∀ settings : Settings,
        let written := (ofList Step.toJson steps).toText settings.layout
        (list Step.decoder).fromText written = ⟨.ok steps, []⟩ ∧
          (list Step.decoder).fromText (written ++ "\n") = ⟨.ok steps, []⟩ := by
  have hreads : Reads (list Step.decoder) (ofList Step.toJson steps) steps :=
    reads_list fun s _ => s.reads
  have hfits : Fits 11 (ofList Step.toJson steps) := fits_ofList fun s _ => s.fits
  have htext (settings : Settings) {blanks : List Char} (hblanks : ∀ c ∈ blanks, isSpace c) :
      (list Step.decoder).fromText
        ((ofList Step.toJson steps).toText settings.layout ++ String.ofList blanks) =
          ⟨.ok steps, []⟩ :=
    hreads.fromText settings.layout (by decide) hfits hblanks
  refine ⟨hreads.fromValue, fun settings => ⟨?_, htext settings (List.forall_mem_singleton.2 rfl)⟩⟩
  have hbare := htext settings (List.forall_mem_nil _)
  rwa [String.ofList_nil, String.append_empty] at hbare

end Questionnaire
