import Questionnaire.Answer.Records
import Questionnaire.Proofs.Json.Text
import Questionnaire.Settings

/-
  The answers of a form read back from what is written for them, but for empty code units.

  An answer is known by the shape of its JSON alone: a string is a text, a list of strings a list of
  choices, a list of numbers code units, tried in this order (`Answer.reads`). Without a member the
  last two look the same, so code units without a member come back as no choices
  (`Answer.settled`). Nothing else changes, at any depth (`FormData.reads`), and since both are
  written alike the second document is the first (`FormData.toJson_settled`).
-/

namespace Questionnaire
open Json Json.Decoder

/-! ## Single answers -/

namespace Answer

/-- The answer that is read from what is written for one. -/
def settled : Answer → Answer
  | .wide [] => .list []
  | a => a

theorem settled_eq_self_iff {a : Answer} : a.settled = a ↔ a ≠ .wide [] := by
  unfold settled
  split
  · simp
  · next h => simpa using h

theorem toJson_settled (a : Answer) : a.settled.toJson = a.toJson := by
  unfold settled
  split <;> rfl

theorem reads_unit (u : UInt16) : Reads unitDecoder (ofNat u.toNat) u := by
  refine ⟨.number _, fun _ => ?_⟩
  rw [unitDecoder, ofNat, reading, naturalBelow, if_pos u.toNat_lt_size, Decoded.pure_bind,
    UInt16.ofNat_toNat]

theorem reads (a : Answer) : Reads decoder a.toJson a.settled := by
  cases a with
  | text s => exact reads_firstOf_head (.text s) rfl
  | list items =>
    have hlist := reads_texts items
    exact reads_firstOf_tail rfl
      (reads_firstOf_head hlist.distinct (congrArg (Option.map _) hlist.value?))
  | wide units =>
    have hunits : Reads (Json.Decoder.list unitDecoder) (toJson (.wide units)) units :=
      reads_list fun u _ => reads_unit u
    cases units with
    | nil => exact reads_firstOf_tail rfl (reads_firstOf_head hunits.distinct rfl)
    | cons u units =>
      -- The first number already rules out a list of texts.
      have hnotTexts :
          (Json.Decoder.list Json.Decoder.text).value? (toJson (.wide (u :: units))) = none := rfl
      refine reads_firstOf_tail rfl (reads_firstOf_tail (congrArg (Option.map _) hnotTexts) ?_)
      exact reads_firstOf_head hunits.distinct (congrArg (Option.map _) hunits.value?)

theorem fits {n : Nat} (a : Answer) : Fits (n + 1) a.toJson := by
  cases a with
  | text s => exact .text s
  | list items => exact fits_ofList fun s _ => .text s
  | wide units => exact fits_ofList fun u _ => .natural (Nat.lt_trans u.toNat_lt_size (by decide))

end Answer

/-! ## Answers by field -/

theorem map_eq_self_iff {α : Type} {as : List α} {f : α → α} :
    as.map f = as ↔ ∀ a ∈ as, f a = a := by
  have h := List.map_inj_left (l := as) (f := f) (g := id)
  rwa [List.map_id] at h

theorem SortedMap.map_eq_self_iff {α : Type} {m : SortedMap α} {f : α → α} :
    m.map f = m ↔ ∀ a ∈ m.values, f a = a := by
  rw [SortedMap.ext_iff, SortedMap.map, SortedMap.values, Questionnaire.map_eq_self_iff,
    List.forall_mem_map]
  simp only [Prod.ext_iff, true_and]

namespace Values

/-- The answers that are read from what is written for some. -/
def settled (v : Values) : Values := v.map Answer.settled

theorem settled_eq_self_iff {v : Values} : v.settled = v ↔ .wide [] ∉ v.values := by
  simp only [settled, SortedMap.map_eq_self_iff, Answer.settled_eq_self_iff]
  exact ⟨fun h hmem => h _ hmem rfl, fun h a ha heq => h (heq ▸ ha)⟩

theorem toJson_settled (v : Values) : v.settled.toJson = v.toJson := by
  simp only [toJson, ofMap, settled, SortedMap.map, List.map_map, Function.comp_def,
    Answer.toJson_settled]

theorem reads (v : Values) : Reads valuesDecoder v.toJson v.settled :=
  reads_sortedMap_map fun e _ => e.2.reads

theorem fits {n : Nat} (v : Values) : Fits (n + 2) v.toJson := fits_ofMap Answer.fits

end Values

/-! ## Records and forms -/

namespace ChildRecord

/-- The record that is read from what is written for one. -/
def settled (r : ChildRecord) : ChildRecord := { r with values := r.values.settled }

theorem toJson_settled (r : ChildRecord) : r.settled.toJson = r.toJson := by
  rw [toJson, toJson, settled, Values.toJson_settled]

theorem reads (r : ChildRecord) : Reads decoder r.toJson r.settled := by
  rw [toJson]
  refine reads_record (by decide) (.slot (reads_text _) (.slot (reads_text _) ?_))
  cases r with
  | mk id field owner step values =>
    cases owner with
    | none => exact .leftOut optional_ne_required (.slot (reads_text _) (.slot values.reads .done))
    | some owner =>
      exact .slot (reads_text? (some owner)) (.slot (reads_text _) (.slot values.reads .done))

theorem fits {n : Nat} (r : ChildRecord) : Fits (n + 3) r.toJson := by
  obtain ⟨id, field, owner, step, values⟩ := r
  have hvalues : Fits (n + 2) values.toJson := values.fits
  refine .object ?_
  cases owner with
  | none =>
    simp only [List.forall_mem_append, List.forall_mem_cons, and_assoc]
    exact ⟨.text _, .text _, List.forall_mem_nil _, List.forall_mem_nil _, .text _, hvalues,
      List.forall_mem_nil _⟩
  | some owner =>
    simp only [List.forall_mem_append, List.forall_mem_cons, and_assoc]
    exact ⟨.text _, .text _, List.forall_mem_nil _, .text owner, List.forall_mem_nil _, .text _,
      hvalues, List.forall_mem_nil _⟩

end ChildRecord

namespace FormData

/-- The answers of a form that are read from what is written for some. -/
def settled (d : FormData) : FormData where
  steps := d.steps.map Values.settled
  records := d.records.map ChildRecord.settled

/-- All answers, those of the steps and those of the records. -/
def answers (d : FormData) : List Answer :=
  d.steps.values.flatMap (·.values) ++ d.records.flatMap (·.values.values)

theorem settled_eq_self_iff {d : FormData} : d.settled = d ↔ .wide [] ∉ d.answers := by
  obtain ⟨steps, records⟩ := d
  have hrecord (r : ChildRecord) : r.settled = r ↔ .wide [] ∉ r.values.values := by
    rw [← Values.settled_eq_self_iff, ChildRecord.settled]
    cases r
    simp only [ChildRecord.mk.injEq, true_and]
  simp only [settled, FormData.mk.injEq, SortedMap.map_eq_self_iff, map_eq_self_iff, hrecord,
    Values.settled_eq_self_iff, answers, List.mem_append, List.mem_flatMap, not_or, not_exists,
    not_and]

theorem toJson_settled (d : FormData) : d.settled.toJson = d.toJson := by
  simp only [toJson, ofMap, ofList, settled, SortedMap.map, List.map_map, Function.comp_def,
    Values.toJson_settled, ChildRecord.toJson_settled]

theorem reads (d : FormData) : Reads decoder d.toJson d.settled :=
  reads_record (by decide)
    (.slot (reads_sortedMap_map fun e _ => e.2.reads)
      (.slot (reads_list_map fun r _ => r.reads) .done))

theorem fits {n : Nat} (d : FormData) : Fits (n + 5) d.toJson := by
  refine .object ?_
  simp only [List.forall_mem_cons]
  exact ⟨fits_ofMap Values.fits, fits_ofList fun r _ => r.fits, List.forall_mem_nil _⟩

/-- The answers of a form, whatever they hold, read back from the value that is written for them,
and from its text in the layout of any settings, with every answer of no code units become one of no
choices and all else as it was. So they read back as they are exactly when they hold no such answer,
and what is read is written as it was before. -/
theorem answers_roundTrip (d : FormData) :
    decoder.fromValue d.toJson = ⟨.ok d.settled, []⟩ ∧
      (∀ settings : Settings,
        let written := d.toJson.toText settings.layout
        decoder.fromText written = ⟨.ok d.settled, []⟩ ∧
          decoder.fromText (written ++ "\n") = ⟨.ok d.settled, []⟩) ∧
      (decoder.fromValue d.toJson = ⟨.ok d, []⟩ ↔ .wide [] ∉ d.answers) ∧
      d.settled.toJson = d.toJson := by
  refine ⟨d.reads.fromValue, fun settings => ?_, ?_, d.toJson_settled⟩
  · have hfits : Fits 5 d.toJson := d.fits
    exact d.reads.fromText_line settings.layout (by decide) hfits
  · rw [d.reads.fromValue, ← settled_eq_self_iff]
    exact ⟨fun h => Except.ok.inj (congrArg Decoded.outcome h), fun h => h.symm ▸ rfl⟩

end FormData

end Questionnaire
