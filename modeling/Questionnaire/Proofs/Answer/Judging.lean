import Questionnaire.Answer.Check
import Questionnaire.Proofs.Text.Utf16

/-
  How code units and lists are judged, against how texts are.

  Code units are judged as the text that they read as; units that are the encoding of no text are
  held to the rule on encodings besides (`judge_illFormed`). Of a list every item is judged as a
  text, but a blank one is not asked whether it must be there, and is held to the other rules even
  so (`validate_list`). So lists are judged item by item where no item is blank, and else only in
  fields that do not tell a blank item from a blank text (`blank_items_misjudged`).
-/

namespace Questionnaire

theorem findSome?_congr {α β : Type} {as : List α} {f g : α → Option β}
    (h : ∀ a ∈ as, f a = g a) : as.findSome? f = as.findSome? g := by
  induction as with
  | nil => rfl
  | cons a as ih =>
    rw [List.findSome?_cons, List.findSome?_cons, h a List.mem_cons_self,
      ih fun b hb => h b (List.mem_cons_of_mem _ hb)]

namespace Field

open Text.Utf16

variable {f : Field} {language : String}

/-! ## Answers and empty answers -/

theorem validate_of_isEmpty {a : Answer} (h : a.isEmpty) :
    f.validate (some a) language = if f.isMandatory then some .required else none := by
  rw [validate, Option.filter_some_neg (by simpa using h)]

theorem validate_of_not_isEmpty {a : Answer} (h : a.isEmpty = false) :
    f.validate (some a) language = f.judgeAnswer language a := by
  rw [validate, Option.filter_some_pos (by simpa using h)]

theorem validate_blank (f : Field) (language : String) :
    f.validate (some (.text "")) language = if f.isMandatory then some .required else none :=
  validate_of_isEmpty rfl

theorem validate_text {s : String} (h : s ≠ "") :
    f.validate (some (.text s)) language = f.judge language s true :=
  validate_of_not_isEmpty (decide_eq_false h)

theorem judge_ne_required (f : Field) (language s : String) (isWellFormed : Bool) :
    f.judge language s isWellFormed ≠ some .required := by
  unfold judge
  grind

/-! ## Code units -/

/-- Where text is not well formed, the rule on encodings decides before that on options. -/
theorem judge_illFormed (f : Field) (language s : String) :
    f.judge language s false =
      if f.wantsUtf8 ∧ f.judge language s true ∈ [none, some .optionMismatch] then
        some .invalidEncoding
      else f.judge language s true := by
  unfold judge
  grind

theorem validate_wide {units : List UInt16} (h : units ≠ []) :
    f.validate (some (.wide units)) language =
      f.judge language (lossy units) (isWellFormed units) :=
  validate_of_not_isEmpty (by simpa [Answer.isEmpty] using h)

theorem validate_encode (f : Field) (language s : String) :
    f.validate (some (.wide (encode s.toList))) language =
      f.validate (some (.text s)) language := by
  by_cases hs : s = ""
  · rw [hs, validate_blank]
    exact validate_of_isEmpty rfl
  · rw [validate_wide (mt encode_eq_nil_iff.1 hs), isWellFormed_encode, lossy_encode,
      validate_text hs]

theorem validate_wide_of_illFormed (f : Field) (language : String) {units : List UInt16}
    (h : isWellFormed units = false) :
    f.validate (some (.wide units)) language =
      if f.wantsUtf8 ∧
          f.validate (some (.text (lossy units))) language ∈ [none, some .optionMismatch] then
        some .invalidEncoding
      else f.validate (some (.text (lossy units))) language := by
  have hne : units ≠ [] := by
    rintro rfl
    cases h
  rw [validate_wide hne, h, judge_illFormed, validate_text (lossy_ne_empty hne)]

/-- What a text is encoded as is judged as the text. Any other code units are judged as the one text
that they encode once every unpaired surrogate gives way to U+FFFD, but for fields that want UTF-8:
these reject them for their encoding where that text would be accepted, or rejected as no option.
So such fields never accept them. -/
theorem validate_wide_mended (f : Field) (language : String) :
    (∀ s : String, f.validate (some (.wide (encode s.toList))) language =
      f.validate (some (.text s)) language) ∧
    ∀ units, (∀ s : String, encode s.toList ≠ units) →
      ∃ s : String, (∀ t : String, encode t.toList = mend none units ↔ t = s) ∧
        f.validate (some (.wide units)) language =
          (if f.wantsUtf8 ∧ f.validate (some (.text s)) language ∈ [none, some .optionMismatch] then
            some .invalidEncoding
          else f.validate (some (.text s)) language) ∧
        (f.wantsUtf8 → f.validate (some (.wide units)) language ≠ none) := by
  refine ⟨validate_encode f language, fun units hunits =>
    ⟨lossy units, fun t => encode_eq_mend_iff, ?_⟩⟩
  have hill : isWellFormed units = false := by
    rw [← Bool.not_eq_true, isWellFormed_iff]
    exact fun ⟨s, hs⟩ => hunits s hs
  have hjudged := validate_wide_of_illFormed f language hill
  refine ⟨hjudged, fun hutf8 => ?_⟩
  rw [hjudged]
  split
  · exact Option.some_ne_none _
  · next h => exact fun hnone => h ⟨hutf8, by rw [hnone]; exact List.mem_cons_self⟩

/-- A title that must be UTF-8 ends in half a pair. The text that it reads as would do. -/
theorem validate_wide_mended_title :
    let f : Field := { id := "title", rules := { characterEncoding := some " Utf-8" } }
    (∀ s : String, encode s.toList ≠ [0x63, 0xDBFF]) ∧
      encode "c\uFFFD".toList = mend none [0x63, 0xDBFF] ∧
      f.validate (some (.text "c\uFFFD")) "eng" = none ∧
      f.validate (some (.wide [0x63, 0xDBFF])) "eng" = some .invalidEncoding := by
  intro f
  have hunits (s : String) : encode s.toList ≠ [0x63, 0xDBFF] :=
    fun h => absurd (isWellFormed_iff.2 ⟨s, h⟩) (by decide)
  have hmend : encode "c\uFFFD".toList = mend none [0x63, 0xDBFF] := by decide
  have htext : f.validate (some (.text "c\uFFFD")) "eng" = none := by
    rw [validate_text (by decide)]
    rfl
  obtain ⟨s, hs, hjudged, -⟩ := (validate_wide_mended f "eng").2 _ hunits
  obtain rfl := (hs "c\uFFFD").1 hmend
  refine ⟨hunits, hmend, htext, ?_⟩
  rw [hjudged, htext, if_pos ⟨by decide, List.mem_cons_self⟩]

/-! ## Lists -/

theorem validate_list {xs : List String} (h : xs ≠ []) :
    f.validate (some (.list xs)) language = xs.findSome? fun x => f.judge language x true :=
  validate_of_not_isEmpty (by simpa [Answer.isEmpty] using h)

/-- Every item is judged as a text, where that is so of the blank one or there is none. -/
theorem validate_list_eq {xs : List String} (h : xs ≠ [])
    (hblank : "" ∈ xs → f.validate (some (.text "")) language = f.judge language "" true) :
    f.validate (some (.list xs)) language =
      xs.findSome? fun x => f.validate (some (.text x)) language := by
  rw [validate_list h]
  refine findSome?_congr fun x hx => ?_
  by_cases hx' : x = ""
  · rw [hx', hblank (hx' ▸ hx)]
  · rw [validate_text hx']

/-- A list that has items is rejected for the first of them that is rejected. An item is judged as
the text it is, but a blank one by all rules but the first, while a blank text is judged by the
first alone. So without blank items the list is judged as its items are, and in any list it is
exactly for the fields that are not mandatory and whose other rules let a blank pass. -/
theorem validate_list_items (f : Field) (language : String) :
    (∀ xs : List String, xs ≠ [] →
      f.validate (some (.list xs)) language = xs.findSome? fun x =>
        if x = "" then f.judge language "" true else f.validate (some (.text x)) language) ∧
    (∀ xs : List String, xs ≠ [] → "" ∉ xs →
      f.validate (some (.list xs)) language =
        xs.findSome? fun x => f.validate (some (.text x)) language) ∧
    ((∀ xs : List String, xs ≠ [] →
      f.validate (some (.list xs)) language =
        xs.findSome? fun x => f.validate (some (.text x)) language) ↔
      f.isMandatory = false ∧ f.judge language "" true = none) := by
  refine ⟨fun xs hxs => ?_, fun xs hxs hblank => validate_list_eq hxs fun h => absurd h hblank,
    fun h => ?_, fun h xs hxs => validate_list_eq hxs fun _ => ?_⟩
  · rw [validate_list hxs]
    refine findSome?_congr fun x _ => ?_
    split
    · next hx => rw [hx]
    · next hx => rw [validate_text hx]
  · -- The list of one blank item already tells the two apart.
    have hblank := h [""] (List.cons_ne_nil _ _)
    rw [validate_list (List.cons_ne_nil _ _), List.findSome?_singleton, List.findSome?_singleton,
      validate_blank] at hblank
    cases hmandatory : f.isMandatory with
    | false => exact ⟨rfl, by rw [hblank, hmandatory]; rfl⟩
    | true =>
      rw [hmandatory, if_pos rfl] at hblank
      exact absurd hblank (judge_ne_required f language "" true)
  · rw [validate_blank, h.1, h.2]
    rfl

/-- Languages that are picked from two codes. -/
def languagesField (conformance : Conformance) : Field where
  id := "languages"
  rules := { conformance, entryCodes := ["eng", "fra"] }

/-- Without blank items, the first language that is no entry code decides. -/
theorem validate_list_items_languages :
    ["fra", "deu"] ≠ [] ∧ "" ∉ ["fra", "deu"] ∧
      (languagesField .mandatory).validate (some (.list ["fra", "deu"])) "eng" =
        some .entryCodeMismatch := by
  have hxs : ["fra", "deu"] ≠ [] := List.cons_ne_nil _ _
  have hblank : "" ∉ ["fra", "deu"] := by decide
  refine ⟨hxs, hblank, ?_⟩
  rw [(validate_list_items (languagesField .mandatory) "eng").2.1 _ hxs hblank]
  rfl

/-- A mandatory field without other rules takes a list of one blank item, but no blank text. A field
that need not be filled in takes a blank text, but no list with a blank item, as that is no entry
code. -/
theorem blank_items_misjudged :
    let filled : Field := { id := "languages", rules := { conformance := .mandatory } }
    (filled.validate (some (.list [""])) "eng" = none ∧
      [""].findSome? (fun x => filled.validate (some (.text x)) "eng") = some .required) ∧
    ((languagesField .voluntary).validate (some (.list ["eng", ""])) "eng" =
        some .entryCodeMismatch ∧
      ["eng", ""].findSome? (fun x => (languagesField .voluntary).validate (some (.text x)) "eng") =
        none) := by
  refine ⟨⟨?_, ?_⟩, ?_, ?_⟩ <;> rfl

end Field
end Questionnaire
