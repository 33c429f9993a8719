import Mathlib.Data.List.TakeWhile
import Questionnaire.Text.Blank

/-
  What trimming leaves of a text.

  A text is bare when it neither starts nor ends with a blank. Trimming leaves a bare text
  (`bare_trimChars`), and it takes away blanks and nothing else: of a bare text with blanks around
  it the bare text is left (`trimChars_around`).
-/

namespace Questionnaire.Text

/-- Nothing but blanks. -/
def Blanks (cs : List Char) : Prop := ∀ c ∈ cs, isBlank c = true

/-- A text without blanks at its ends. -/
structure Bare (cs : List Char) : Prop where
  head : ∀ c, cs.head? = some c → isBlank c = false
  last : ∀ c, cs.getLast? = some c → isBlank c = false

variable {cs before after : List Char}

theorem dropWhile_isBlank_of_head (h : ∀ c, cs.head? = some c → isBlank c = false) :
    cs.dropWhile isBlank = cs := by
  cases cs with
  | nil => rfl
  | cons c cs => rw [List.dropWhile_cons_of_neg (by simp [h c rfl])]

theorem isBlank_of_head?_dropWhile {c : Char} (h : (cs.dropWhile isBlank).head? = some c) :
    isBlank c = false := by
  have hhead := List.head?_dropWhile_not isBlank cs
  rwa [h] at hhead

theorem trim_eq_iff {s t : String} : trim s = t ↔ trimChars s.toList = t.toList := by
  rw [← String.toList_inj, toList_trim]

theorem trimChars_of_bare (h : Bare cs) : trimChars cs = cs := by
  have hlast (c : Char) (hc : cs.reverse.head? = some c) : isBlank c = false := by
    rw [List.head?_reverse] at hc
    exact h.last c hc
  unfold trimChars
  rw [dropWhile_isBlank_of_head h.head, dropWhile_isBlank_of_head hlast, List.reverse_reverse]

theorem trim_of_bare {s : String} (h : Bare s.toList) : trim s = s := by
  rw [trim_eq_iff, trimChars_of_bare h]

theorem trimChars_blanks_append (h : Blanks before) :
    trimChars (before ++ cs) = trimChars cs := by
  unfold trimChars
  rw [List.dropWhile_append_of_pos h]

theorem trimChars_append_blanks (h : Blanks after) : trimChars (cs ++ after) = trimChars cs := by
  unfold trimChars
  rw [List.dropWhile_append]
  split
  · next hcs => rw [List.isEmpty_iff.1 hcs, List.dropWhile_eq_nil_iff.2 h]
  · have hreverse (c : Char) (hc : c ∈ after.reverse) : isBlank c = true :=
      h c (List.mem_reverse.1 hc)
    rw [List.reverse_append, List.dropWhile_append_of_pos hreverse]

/-- Of a bare text with blanks around it the bare text is left. -/
theorem trimChars_around (hbefore : Blanks before) (hafter : Blanks after) (h : Bare cs) :
    trimChars (before ++ cs ++ after) = cs := by
  rw [trimChars_append_blanks hafter, trimChars_blanks_append hbefore, trimChars_of_bare h]

theorem bare_trimChars (cs : List Char) : Bare (trimChars cs) := by
  unfold trimChars
  constructor
  · intro c hc
    rw [List.head?_reverse] at hc
    -- What is dropped from the end leaves the first character where it is.
    have hsplit := List.takeWhile_append_dropWhile (p := isBlank)
      (l := (cs.dropWhile isBlank).reverse)
    have hlast : (cs.dropWhile isBlank).reverse.getLast? = some c := by
      rw [← hsplit, List.getLast?_append, hc, Option.some_or]
    rw [List.getLast?_reverse] at hlast
    exact isBlank_of_head?_dropWhile hlast
  · intro c hc
    rw [List.getLast?_reverse] at hc
    exact isBlank_of_head?_dropWhile hc

end Questionnaire.Text
