import Mathlib.Data.List.Induction
import Mathlib.Data.Nat.Digits.Defs
import Questionnaire.Proofs.Text.Blank
import Questionnaire.Text.Numeral

/-
  Numerals and the numbers they denote.

  `Denotes` is the grammar: one or more decimal digits, with or without a plus sign before them,
  denote the number that has these digits. Zeros in front change nothing. A numeral is read exactly
  as what it denotes (`natural?_eq_some_iff`), and in 64 bits exactly when that fits
  (`word64?_eq_some_iff`); every number has a numeral, the one it is written as
  (`denotes_toString`).
-/

namespace Questionnaire.Text

/-- The number with the given decimal digits; the last of them counts the ones. -/
def decimal (digits : List Char) : Nat :=
  Nat.ofDigits 10 (digits.reverse.map fun c => c.toNat - '0'.toNat)

/-- One or more decimal digits spell a number. -/
structure Spells (digits : List Char) (n : Nat) : Prop where
  ne_nil : digits ≠ []
  isDigit : ∀ c ∈ digits, c.isDigit
  value : decimal digits = n

/-- A numeral denotes a number. -/
inductive Denotes : List Char → Nat → Prop
  | unsigned {digits : List Char} {n : Nat} (h : Spells digits n) : Denotes digits n
  | signed {digits : List Char} {n : Nat} (h : Spells digits n) : Denotes ('+' :: digits) n

variable {cs ds : List Char} {n : Nat} {w : UInt64}

/-! ## Digits -/

theorem decimal_concat (ds : List Char) (c : Char) :
    decimal (ds ++ [c]) = decimal ds * 10 + (c.toNat - '0'.toNat) := by
  unfold decimal
  rw [List.reverse_append, List.reverse_singleton, List.singleton_append, List.map_cons,
    Nat.ofDigits_cons]
  omega

theorem digitsValue?_concat (ds : List Char) (c : Char) :
    digitsValue? (ds ++ [c]) = (digitsValue? ds).bind fun n =>
      if c.isDigit then some (n * 10 + (c.toNat - '0'.toNat)) else none := by
  unfold digitsValue?
  rw [List.foldl_append, List.foldl_cons, List.foldl_nil]

theorem digitsValue?_eq_some_iff :
    digitsValue? ds = some n ↔ (∀ c ∈ ds, c.isDigit) ∧ decimal ds = n := by
  induction ds using List.reverseRecOn generalizing n with
  | nil => simp [digitsValue?, decimal]
  | append_singleton ds c ih =>
    rw [digitsValue?_concat, Option.bind_eq_some_iff, decimal_concat]
    constructor
    · rintro ⟨m, hm, hc⟩
      obtain ⟨hds, rfl⟩ := ih.1 hm
      obtain ⟨hdigit, hn⟩ := Option.ite_none_right_eq_some.1 hc
      refine ⟨?_, Option.some.inj hn⟩
      intro d hd
      rcases List.mem_append.1 hd with hd | hd
      · exact hds d hd
      · rwa [List.mem_singleton.1 hd]
    · rintro ⟨hall, hn⟩
      have hds (d : Char) (hd : d ∈ ds) : d.isDigit := hall d (List.mem_append_left _ hd)
      have hc : c.isDigit := hall c (List.mem_append_right _ List.mem_cons_self)
      exact ⟨decimal ds, ih.2 ⟨hds, rfl⟩, by rw [if_pos hc, hn]⟩

theorem decimal_eq_ofDigitChars (ds : List Char) : decimal ds = Nat.ofDigitChars 10 ds 0 := by
  induction ds using List.reverseRecOn with
  | nil => rfl
  | append_singleton ds c ih =>
    rw [decimal_concat, ih, Nat.ofDigitChars_append, Nat.ofDigitChars_cons, Nat.ofDigitChars_nil]
    omega

/-! ## Numerals -/

theorem denotes_plus_iff : Denotes ('+' :: ds) n ↔ Spells ds n := by
  constructor
  · intro h
    cases h with
    | unsigned h => exact absurd (h.isDigit '+' List.mem_cons_self) (by decide)
    | signed h => exact h
  · exact .signed

theorem denotes_iff_of_head (hhead : cs.head? ≠ some '+') : Denotes cs n ↔ Spells cs n := by
  constructor
  · intro h
    cases h with
    | unsigned h => exact h
    | signed h => exact absurd rfl hhead
  · exact .unsigned

theorem natural?_plus (ds : List Char) :
    natural? ('+' :: ds) = if ds.isEmpty then none else digitsValue? ds := rfl

theorem natural?_of_head (hhead : cs.head? ≠ some '+') :
    natural? cs = if cs.isEmpty then none else digitsValue? cs := by
  unfold natural?
  split
  · exact absurd rfl hhead
  · rfl

theorem ite_isEmpty_eq_some_iff :
    (if ds.isEmpty then none else digitsValue? ds) = some n ↔ Spells ds n := by
  rw [Option.ite_none_left_eq_some, digitsValue?_eq_some_iff, List.isEmpty_iff]
  constructor
  · rintro ⟨hne, hdigits, hvalue⟩
    exact ⟨hne, hdigits, hvalue⟩
  · intro h
    exact ⟨h.ne_nil, h.isDigit, h.value⟩

/-- A numeral is read as the number that it denotes, and nothing else is read. -/
theorem natural?_eq_some_iff : natural? cs = some n ↔ Denotes cs n := by
  by_cases hhead : cs.head? = some '+'
  · obtain ⟨ds, rfl⟩ := List.head?_eq_some_iff.1 hhead
    rw [natural?_plus, ite_isEmpty_eq_some_iff, denotes_plus_iff]
  · rw [natural?_of_head hhead, ite_isEmpty_eq_some_iff, denotes_iff_of_head hhead]

/-- In 64 bits a numeral is read when the number that it denotes fits. -/
theorem word64?_eq_some_iff : word64? cs = some w ↔ Denotes cs w.toNat := by
  unfold word64?
  rw [Option.bind_eq_some_iff, ← natural?_eq_some_iff]
  constructor
  · rintro ⟨n, hn, hw⟩
    obtain ⟨hlt, heq⟩ := Option.ite_none_right_eq_some.1 hw
    rwa [← Option.some.inj heq, UInt64.toNat_ofNat_of_lt' hlt]
  · intro hn
    exact ⟨w.toNat, hn, by rw [if_pos w.toNat_lt_size, UInt64.ofNat_toNat]⟩

/-- A number is denoted by what it is written as. -/
theorem denotes_toString (n : Nat) : Denotes (toString n).toList n := by
  have hdigits : (toString n).toList = Nat.toDigits 10 n := Nat.toList_repr
  have hspells : Spells (Nat.toDigits 10 n) n := by
    refine ⟨Nat.toDigits_ne_nil, ?_, ?_⟩
    · intro c hc
      exact Nat.isDigit_of_mem_toDigits (by decide) (by decide) hc
    · rw [decimal_eq_ofDigitChars, Nat.ofDigitChars_ten_toDigits]
  rw [hdigits]
  exact .unsigned hspells

/-! ## Characters of a numeral -/

theorem eq_plus_or_isDigit_of_denotes (h : Denotes cs n) {c : Char} (hc : c ∈ cs) :
    c = '+' ∨ c.isDigit := by
  cases h with
  | unsigned h => exact .inr (h.isDigit c hc)
  | signed h =>
    rcases List.mem_cons.1 hc with hc | hc
    · exact .inl hc
    · exact .inr (h.isDigit c hc)

theorem isBlank_of_isDigit {c : Char} (h : c.isDigit) : isBlank c = false := by
  have hrange : 48 ≤ c.toNat ∧ c.toNat ≤ 57 := by
    simpa [Char.isDigit, UInt32.le_iff_toNat_le] using h
  simp [isBlank, blankRanges]
  omega

theorem Denotes.bare (h : Denotes cs n) : Bare cs := by
  have hnone (c : Char) (hc : c ∈ cs) : isBlank c = false := by
    rcases eq_plus_or_isDigit_of_denotes h hc with rfl | hdigit
    · decide
    · exact isBlank_of_isDigit hdigit
  exact ⟨fun c hc => hnone c (List.mem_of_head? hc), fun c hc => hnone c (List.mem_of_getLast? hc)⟩

end Questionnaire.Text
