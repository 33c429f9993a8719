import Questionnaire.Field.Basic
import Questionnaire.Proofs.Text.Numeral

/-
  How a range of values is read.

  The dashes of a text divide it, and of the parts only the first two count (`Sides`). A part that is
  a numeral below 2^64, with any blanks around it, sets its bound; any other part leaves its side
  open (`SetsBound`). So every text is a range, and two numbers with a dash between them are the
  range that they bound, whatever stands behind a second dash (`ofText_reads`).
-/

namespace Questionnaire

/-! ## Pieces between separators -/

namespace Text

variable {separator : Char} {cs : List Char}

theorem splitChars_of_not_mem (h : separator ∉ cs) : splitChars separator cs = [cs] := by
  induction cs with
  | nil => rfl
  | cons c cs ih =>
    rw [List.mem_cons, not_or] at h
    rw [splitChars, if_neg (Ne.symm h.1), ih h.2]

theorem splitChars_append_cons (h : separator ∉ cs) (rest : List Char) :
    splitChars separator (cs ++ separator :: rest) = cs :: splitChars separator rest := by
  induction cs with
  | nil => rw [List.nil_append, splitChars, if_pos rfl]
  | cons c cs ih =>
    rw [List.mem_cons, not_or] at h
    rw [List.cons_append, splitChars, if_neg (Ne.symm h.1), ih h.2]

end Text

namespace Cardinality

open Text

/-! ## The two sides of a range -/

/-- A text with the part before its first dash, and the part behind it up to the next dash or the
end. -/
inductive Sides : List Char → List Char → Option (List Char) → Prop
  /-- A text without a dash has no second part. -/
  | single {low : List Char} (hlow : '-' ∉ low) : Sides low low none
  | pair {low high rest : List Char} (hlow : '-' ∉ low) (hhigh : '-' ∉ high)
    (hrest : rest = [] ∨ ∃ more, rest = '-' :: more) :
    Sides (low ++ '-' :: (high ++ rest)) low (some high)

/-- What a part sets as a bound: the number that it denotes when it is trimmed, if that is below
2^64. Without such a number the side is open. -/
structure SetsBound (part : Option (List Char)) (whenOpen bound : UInt64) : Prop where
  number : ∀ cs n, part = some cs → Denotes (trimChars cs) n → n < UInt64.size → bound.toNat = n
  otherwise : (¬ ∃ cs n, part = some cs ∧ Denotes (trimChars cs) n ∧ n < UInt64.size) →
    bound = whenOpen

/-- The bound that a part sets. -/
def bound? (part : Option (List Char)) : Option UInt64 :=
  part.bind fun cs => word64? (trimChars cs)

variable {cs low high before after : List Char} {part : Option (List Char)} {w : UInt64}

theorem exists_sides (cs : List Char) : ∃ low high, Sides cs low high := by
  by_cases hdash : '-' ∈ cs
  · obtain ⟨low, rest, rfl, hlow⟩ := List.eq_append_cons_of_mem hdash
    by_cases hagain : '-' ∈ rest
    · obtain ⟨high, more, rfl, hhigh⟩ := List.eq_append_cons_of_mem hagain
      exact ⟨low, some high, .pair hlow hhigh (.inr ⟨more, rfl⟩)⟩
    · have hsides := Sides.pair hlow hagain (.inl rfl)
      rw [List.append_nil] at hsides
      exact ⟨low, some rest, hsides⟩
  · exact ⟨cs, none, .single hdash⟩

/-- The two sides are the first pieces between dashes. -/
theorem Sides.splitChars_eq (h : Sides cs low part) :
    ∃ more, splitChars '-' cs = low :: more ∧ more.head? = part := by
  cases h with
  | single hlow => exact ⟨[], splitChars_of_not_mem hlow, rfl⟩
  | pair hlow hhigh hrest =>
    refine ⟨_, splitChars_append_cons hlow _, ?_⟩
    rcases hrest with rfl | ⟨more, rfl⟩
    · rw [List.append_nil, splitChars_of_not_mem hhigh, List.head?_cons]
    · rw [splitChars_append_cons hhigh, List.head?_cons]

theorem Sides.unique {low' : List Char} {part' : Option (List Char)} (h : Sides cs low part)
    (h' : Sides cs low' part') : low' = low ∧ part' = part := by
  obtain ⟨more, hsplit, rfl⟩ := h.splitChars_eq
  obtain ⟨more', hsplit', rfl⟩ := h'.splitChars_eq
  obtain ⟨hlow, hmore⟩ := List.cons.inj (hsplit'.symm.trans hsplit)
  exact ⟨hlow, congrArg List.head? hmore⟩

theorem ofText_of_sides {s : String} (h : Sides s.toList low part) :
    ofText s = { min := (bound? (some low)).getD 0, max := (bound? part).getD unbounded } := by
  obtain ⟨more, hsplit, rfl⟩ := h.splitChars_eq
  unfold ofText
  rw [hsplit]
  cases more with
  | nil => rfl
  | cons high more => rfl

/-! ## Bounds -/

theorem bound?_eq_some_iff :
    bound? part = some w ↔ ∃ cs, part = some cs ∧ Denotes (trimChars cs) w.toNat := by
  unfold bound?
  rw [Option.bind_eq_some_iff]
  simp only [word64?_eq_some_iff]

theorem setsBound_getD (part : Option (List Char)) (whenOpen : UInt64) :
    SetsBound part whenOpen ((bound? part).getD whenOpen) := by
  constructor
  · intro cs n hpart hn hlt
    have hsize : (UInt64.ofNat n).toNat = n := UInt64.toNat_ofNat_of_lt' hlt
    have hbound : bound? part = some (UInt64.ofNat n) :=
      bound?_eq_some_iff.2 ⟨cs, hpart, hsize.symm ▸ hn⟩
    rw [hbound, Option.getD_some, hsize]
  · intro hnone
    cases hbound : bound? part with
    | none => rfl
    | some w =>
      obtain ⟨cs, hpart, hn⟩ := bound?_eq_some_iff.1 hbound
      exact absurd ⟨cs, w.toNat, hpart, hn, w.toNat_lt_size⟩ hnone

/-! ## Numbers with blanks around them -/

theorem bound?_around (hbefore : Blanks before) (hafter : Blanks after)
    (h : Denotes cs w.toNat) : bound? (some (before ++ cs ++ after)) = some w := by
  rw [bound?_eq_some_iff]
  refine ⟨_, rfl, ?_⟩
  rwa [trimChars_around hbefore hafter h.bare]

theorem dash_not_mem_around {n : Nat} (hbefore : Blanks before) (hafter : Blanks after)
    (h : Denotes cs n) : '-' ∉ before ++ cs ++ after := by
  have hblank : isBlank '-' = false := by decide
  intro hdash
  rcases List.mem_append.1 hdash with hdash | hdash
  · rcases List.mem_append.1 hdash with hdash | hdash
    · exact Bool.false_ne_true (hblank.symm.trans (hbefore _ hdash))
    · rcases eq_plus_or_isDigit_of_denotes h hdash with heq | hdigit
      · exact absurd heq (by decide)
      · exact absurd hdigit (by decide)
  · exact Bool.false_ne_true (hblank.symm.trans (hafter _ hdash))

/-- Every text is read as a range. Its first part sets the minimum, which is zero where the side is
open, and its second part the maximum. Two numbers are read back, with any blanks around them and
with anything behind a second dash. -/
theorem ofText_reads :
    (∀ s : String, ∃ low part, Sides s.toList low part ∧
      (∀ low' part', Sides s.toList low' part' → low' = low ∧ part' = part) ∧
      SetsBound (some low) 0 (ofText s).min ∧ SetsBound part unbounded (ofText s).max) ∧
    ∀ (min max : UInt64) (a b c d rest : String),
      Blanks a.toList → Blanks b.toList → Blanks c.toList → Blanks d.toList →
      (rest = "" ∨ ∃ more, rest = "-" ++ more) →
      ofText (a ++ toString min ++ b ++ "-" ++ c ++ toString max ++ d ++ rest) = { min, max } := by
  constructor
  · intro s
    obtain ⟨low, part, hsides⟩ := exists_sides s.toList
    refine ⟨low, part, hsides, fun low' part' h' => hsides.unique h', ?_⟩
    rw [ofText_of_sides hsides]
    exact ⟨setsBound_getD (some low) 0, setsBound_getD part unbounded⟩
  · intro min max a b c d rest ha hb hc hd hrest
    have hmin : Denotes (toString min).toList min.toNat := denotes_toString min.toNat
    have hmax : Denotes (toString max).toList max.toNat := denotes_toString max.toNat
    have hends : rest.toList = [] ∨ ∃ more, rest.toList = '-' :: more := by
      rcases hrest with rfl | ⟨more, rfl⟩
      · exact .inl rfl
      · exact .inr ⟨more.toList, by rw [String.toList_append]; rfl⟩
    have hsides := Sides.pair (dash_not_mem_around ha hb hmin) (dash_not_mem_around hc hd hmax) hends
    have htext : (a ++ toString min ++ b ++ "-" ++ c ++ toString max ++ d ++ rest).toList =
        a.toList ++ (toString min).toList ++ b.toList ++
          '-' :: (c.toList ++ (toString max).toList ++ d.toList ++ rest.toList) := by
      simp only [String.toList_append, List.append_assoc]
      rfl
    rw [← htext] at hsides
    rw [ofText_of_sides hsides, bound?_around ha hb hmin, bound?_around hc hd hmax]
    rfl

/-- The widest range, with a tab and two other blanks and with another dash behind it. -/
theorem ofText_reads_widest :
    Blanks "\t".toList ∧ Blanks "\u00a0".toList ∧ Blanks "".toList ∧ Blanks "\n".toList ∧
      ofText "\t0\u00a0-18446744073709551615\n-1" = { min := 0, max := 18446744073709551615 } := by
  have htab : Blanks "\t".toList := List.forall_mem_singleton.2 (by decide)
  have hspace : Blanks "\u00a0".toList := List.forall_mem_singleton.2 (by decide)
  have hnone : Blanks "".toList := List.forall_mem_nil _
  have hline : Blanks "\n".toList := List.forall_mem_singleton.2 (by decide)
  have hread := ofText_reads.2 0 18446744073709551615 "\t" "\u00a0" "" "\n" "-1" htab hspace hnone
    hline (.inr ⟨"1", rfl⟩)
  exact ⟨htab, hspace, hnone, hline, hread⟩

/-- One more than fits leaves the side open; signs and zeros in front do not matter. -/
example : ofText "+007-18446744073709551616" = { min := 7 } := by decide

end Cardinality
end Questionnaire
