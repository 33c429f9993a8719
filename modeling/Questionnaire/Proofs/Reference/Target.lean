import Questionnaire.Proofs.Text.Blank
import Questionnaire.Reference.Target

/-
  The written forms of a reference.

  A trimmed text refers to a unit in two forms, the mark of a reference alone or in the brackets of
  an array (`afterLeading_iff`). The brackets stand or fall together: with one of them missing or
  with another pair inside, nothing is referred to. `referenceTarget?_reads` says which texts refer
  to which identifier, and which identifiers can be referred to.
-/

namespace Questionnaire

open Text

variable {cs inside t : List Char} {name : List Char}

theorem insideArray?_eq_some_iff :
    insideArray? cs = some inside ↔ cs = arrayMark ++ inside ++ [']'] := by
  unfold insideArray?
  rw [Option.bind_eq_some_iff]
  constructor
  · rintro ⟨rest, hrest, hclosed⟩
    obtain ⟨hlast, hinside⟩ := Option.ite_none_right_eq_some.1 hclosed
    obtain ⟨front, rfl⟩ := List.getLast?_eq_some_iff.1 hlast
    rw [List.dropLast_concat] at hinside
    rw [afterLeading_eq_some_iff.1 hrest, Option.some.inj hinside, List.append_assoc]
  · rintro rfl
    refine ⟨inside ++ [']'], afterLeading_eq_some_iff.2 (List.append_assoc ..), ?_⟩
    rw [List.getLast?_concat, if_pos rfl, List.dropLast_concat]

/-- The mark of a reference stands in front of the text or of what an array encloses, and it cannot
stand in both places. -/
theorem afterLeading_iff :
    afterLeading referenceMark ((insideArray? cs).getD cs) = some t ↔
      cs = referenceMark ++ t ∨ cs = arrayMark ++ (referenceMark ++ t) ++ [']'] := by
  have hapart (inside : List Char) : arrayMark ++ inside ++ [']'] ≠ referenceMark ++ t := by
    intro heq
    have hmark : 'A' = 'r' := Option.some.inj (congrArg List.head? heq)
    exact absurd hmark (by decide)
  rw [afterLeading_eq_some_iff]
  cases hinside : insideArray? cs with
  | some inside =>
    rw [insideArray?_eq_some_iff] at hinside
    rw [Option.getD_some, hinside]
    constructor
    · rintro rfl
      exact .inr rfl
    · rintro (heq | heq)
      · exact absurd heq (hapart inside)
      · exact List.append_cancel_left (List.append_cancel_right heq)
  | none =>
    rw [Option.getD_none]
    constructor
    · exact .inl
    · rintro (heq | heq)
      · exact heq
      · rw [insideArray?_eq_some_iff.2 heq] at hinside
        cases hinside

theorem targetChars?_eq_some_iff :
    targetChars? cs = some name ↔ ∃ t,
      (trimChars cs = referenceMark ++ t ∨ trimChars cs = arrayMark ++ (referenceMark ++ t) ++ [']']) ∧
      trimChars t = name ∧ name ≠ [] := by
  unfold targetChars?
  simp only [Option.filter_eq_some_iff, Option.map_eq_some_iff, afterLeading_iff]
  constructor
  · rintro ⟨⟨t, ht, rfl⟩, hne⟩
    exact ⟨t, ht, rfl, by simpa using hne⟩
  · rintro ⟨t, ht, rfl, hne⟩
    exact ⟨⟨t, ht, rfl⟩, by simpa using hne⟩

/-! ## Texts -/

theorem trim_eq_reference_iff {s t : String} :
    trim s = "refs:" ++ t ↔ trimChars s.toList = referenceMark ++ t.toList := by
  rw [trim_eq_iff, String.toList_append]
  rfl

theorem trim_eq_array_iff {s t : String} :
    trim s = "Array[refs:" ++ t ++ "]" ↔
      trimChars s.toList = arrayMark ++ (referenceMark ++ t.toList) ++ [']'] := by
  rw [trim_eq_iff, String.toList_append, String.toList_append, ← List.append_assoc arrayMark]
  rfl

theorem referenceTarget?_text {s id : String} :
    referenceTarget? (.text s) = some id ↔ targetChars? s.toList = some id.toList := by
  unfold referenceTarget?
  rw [Option.map_eq_some_iff]
  constructor
  · rintro ⟨name, hname, rfl⟩
    rw [hname, String.toList_ofList]
  · intro hname
    exact ⟨id.toList, hname, String.ofList_toList⟩

theorem exists_text_of_referenceTarget? {v : Json} {id : String}
    (h : referenceTarget? v = some id) : ∃ s, v = .text s := by
  unfold referenceTarget? at h
  split at h
  · exact ⟨_, rfl⟩
  · cases h

theorem referenceTarget?_text_eq_some_iff {s id : String} :
    referenceTarget? (.text s) = some id ↔ ∃ t,
      (trim s = "refs:" ++ t ∨ trim s = "Array[refs:" ++ t ++ "]") ∧ trim t = id ∧ id ≠ "" := by
  have hempty : id ≠ "" ↔ id.toList ≠ [] := by simp
  rw [referenceTarget?_text, targetChars?_eq_some_iff, hempty]
  constructor
  · rintro ⟨t, ht, hname⟩
    refine ⟨String.ofList t, ?_, ?_⟩
    · rwa [trim_eq_reference_iff, trim_eq_array_iff, String.toList_ofList]
    · rwa [trim_eq_iff, String.toList_ofList]
  · rintro ⟨t, ht, hname⟩
    refine ⟨t.toList, ?_, ?_⟩
    · rwa [trim_eq_reference_iff, trim_eq_array_iff] at ht
    · rwa [trim_eq_iff] at hname

/-! ## Identifiers that can be referred to -/

theorem bare_reference (hne : cs ≠ []) (h : Bare cs) : Bare (referenceMark ++ cs) := by
  constructor
  · intro c hc
    have hmark : 'r' = c := Option.some.inj hc
    rw [← hmark]
    decide
  · intro c hc
    rw [List.getLast?_append, Option.or_of_isSome (List.getLast?_isSome.2 hne)] at hc
    exact h.last c hc

theorem bare_array (cs : List Char) : Bare (arrayMark ++ cs ++ [']']) := by
  constructor
  · intro c hc
    have hmark : 'A' = c := Option.some.inj hc
    rw [← hmark]
    decide
  · intro c hc
    rw [List.getLast?_concat] at hc
    rw [← Option.some.inj hc]
    decide

/-- A declared type refers to an identifier exactly when it is a text of one of the two forms, with
any blanks around the whole and around the identifier. Both forms of an identifier refer to it
exactly when it is not empty and has no blanks at its ends. -/
theorem referenceTarget?_reads :
    (∀ (v : Json) (id : String), referenceTarget? v = some id ↔ ∃ s t, v = .text s ∧
      (trim s = "refs:" ++ t ∨ trim s = "Array[refs:" ++ t ++ "]") ∧ trim t = id ∧ id ≠ "") ∧
    ∀ id : String, referenceTarget? (.text ("refs:" ++ id)) = some id ∧
        referenceTarget? (.text ("Array[refs:" ++ id ++ "]")) = some id ↔
      id ≠ "" ∧ Bare id.toList := by
  constructor
  · intro v id
    constructor
    · intro h
      obtain ⟨s, rfl⟩ := exists_text_of_referenceTarget? h
      obtain ⟨t, ht⟩ := referenceTarget?_text_eq_some_iff.1 h
      exact ⟨s, t, rfl, ht⟩
    · rintro ⟨s, t, rfl, ht⟩
      exact referenceTarget?_text_eq_some_iff.2 ⟨t, ht⟩
  · intro id
    constructor
    · rintro ⟨hplain, -⟩
      obtain ⟨t, -, rfl, hne⟩ := referenceTarget?_text_eq_some_iff.1 hplain
      rw [toList_trim]
      exact ⟨hne, bare_trimChars t.toList⟩
    · rintro ⟨hne, hbare⟩
      have hplain : Bare ("refs:" ++ id).toList := by
        rw [String.toList_append]
        exact bare_reference (by simpa using hne) hbare
      have harray : Bare ("Array[refs:" ++ id ++ "]").toList := by
        have hmarked := bare_array (referenceMark ++ id.toList)
        rw [← List.append_assoc] at hmarked
        rwa [String.toList_append, String.toList_append]
      constructor
      · exact referenceTarget?_text_eq_some_iff.2
          ⟨id, .inl (trim_of_bare hplain), trim_of_bare hbare, hne⟩
      · exact referenceTarget?_text_eq_some_iff.2
          ⟨id, .inr (trim_of_bare harray), trim_of_bare hbare, hne⟩

/-- A bracket that is left open makes the text an ordinary type. -/
example : referenceTarget? (.text "Array[refs:work") = none := by decide

end Questionnaire
