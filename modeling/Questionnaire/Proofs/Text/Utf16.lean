import Questionnaire.Text.Utf16

/-
  Decoding code units undoes encoding, and mends what is the encoding of no text.

  What a text is encoded as decodes to its characters (`decode_encode`), so it is well formed and
  reads as that text. Whatever list is decoded, the text that it reads as is encoded as the list
  with U+FFFD in the place of every unpaired surrogate (`encode_lossy`); where none is unpaired,
  that is the list itself (`encode_lossy_of_isWellFormed`). Which surrogates are unpaired is told
  from the units beside them (`isUnpaired`) and not from how the list is decoded.
-/

namespace Questionnaire.Text.Utf16

variable {u v : UInt16} {rest : List UInt16}

/-! ## Single units -/

/-- A surrogate without its partner, between the units before and after it. -/
def isUnpaired (before : Option UInt16) (u : UInt16) (after : Option UInt16) : Bool :=
  isLeading u && !after.any isTrailing || isTrailing u && !before.any isLeading

theorem isLeading_iff : isLeading u ↔ 0xD800 ≤ u.toNat ∧ u.toNat ≤ 0xDBFF := by
  simp [isLeading]

theorem isTrailing_iff : isTrailing u ↔ 0xDC00 ≤ u.toNat ∧ u.toNat ≤ 0xDFFF := by
  simp [isTrailing]

theorem not_isTrailing_of_isLeading (h : isLeading u) : isTrailing u = false := by
  rw [isLeading_iff] at h
  rw [← Bool.not_eq_true, isTrailing_iff]
  omega

theorem not_isLeading_of_isTrailing (h : isTrailing u) : isLeading u = false := by
  rw [← Bool.not_eq_true]
  exact fun hlead => Bool.false_ne_true (not_isTrailing_of_isLeading hlead ▸ h)

/-! ## Decoding, unit by unit -/

theorem decode_plain (hlead : isLeading u = false) (htrail : isTrailing u = false) :
    decode (u :: rest) = some (Char.ofNat u.toNat) :: decode rest := by
  cases rest <;> simp [decode, hlead, htrail]

theorem decode_pair (hu : isLeading u) (hv : isTrailing v) :
    decode (u :: v :: rest) = some (pair u v) :: decode rest := by
  rw [decode, if_pos hu, if_pos hv]

/-- Behind no other unit, one without its partner is decoded alone. -/
theorem decode_unpaired (h : isUnpaired none u rest.head?) :
    decode (u :: rest) = none :: decode rest := by
  cases rest <;> grind [decode, isUnpaired, not_isTrailing_of_isLeading]

/-- A list of units is empty or starts with a pair of surrogates, with an unpaired one or with a
unit that is none. -/
theorem induction_units {motive : List UInt16 → Prop} (nil : motive [])
    (pair : ∀ u v rest, isLeading u → isTrailing v → motive rest → motive (u :: v :: rest))
    (unpaired : ∀ u rest, isUnpaired none u rest.head? → motive rest → motive (u :: rest))
    (plain : ∀ u rest, isLeading u = false → isTrailing u = false → motive rest →
      motive (u :: rest))
    (units : List UInt16) : motive units := by
  fun_induction decode units with
  | case1 => exact nil
  | case2 u v rest hu hv ih => exact pair u v rest hu hv ih
  | case3 u v rest hu hv ih => exact unpaired u _ (by simp [isUnpaired, hu, hv]) ih
  | case4 u v rest hu hv ih => exact unpaired u _ (by simp [isUnpaired, hv]) ih
  | case5 u v rest hu hv ih => exact plain u _ (by simpa using hu) (by simpa using hv) ih
  | case6 u hu => exact unpaired u [] (by simpa [isUnpaired] using hu) nil
  | case7 u hu =>
    rw [Bool.or_eq_true, not_or, Bool.not_eq_true, Bool.not_eq_true] at hu
    exact plain u [] hu.1 hu.2 nil

/-! ## Single characters -/

theorem toNat_lt (c : Char) : c.toNat < 0xD800 ∨ 0xDFFF < c.toNat ∧ c.toNat < 0x110000 := c.valid

theorem toNat_ofNat {n : Nat} (h : n.isValidChar) : (Char.ofNat n).toNat = n := by
  rw [Char.ofNat, dif_pos h]
  rfl

/-- A unit that is no surrogate encodes its character. -/
theorem encodeChar_plain (hlead : isLeading u = false) (htrail : isTrailing u = false) :
    encodeChar (Char.ofNat u.toNat) = [u] := by
  rw [← Bool.not_eq_true, isLeading_iff] at hlead
  rw [← Bool.not_eq_true, isTrailing_iff] at htrail
  have hlt : u.toNat < 0x10000 := u.toNat_lt_size
  have hvalid : u.toNat.isValidChar := by
    unfold Nat.isValidChar
    omega
  rw [encodeChar, toNat_ofNat hvalid, if_pos hlt, UInt16.ofNat_toNat]

/-- A pair of surrogates encodes its character. -/
theorem encodeChar_pair (hu : isLeading u) (hv : isTrailing v) :
    encodeChar (pair u v) = [u, v] := by
  rw [isLeading_iff] at hu
  rw [isTrailing_iff] at hv
  let n := 0x10000 + (u.toNat - 0xD800) * 0x400 + (v.toNat - 0xDC00)
  have hvalid : n.isValidChar := by
    unfold Nat.isValidChar
    omega
  have hlead : 0xD800 + (n - 0x10000) / 0x400 = u.toNat := by omega
  have htrail : 0xDC00 + (n - 0x10000) % 0x400 = v.toNat := by omega
  rw [encodeChar, pair, toNat_ofNat hvalid, if_neg (by omega), hlead, htrail, UInt16.ofNat_toNat,
    UInt16.ofNat_toNat]

/-- A character is encoded as a unit that is no surrogate or as a pair of surrogates. -/
theorem encodeChar_cases (c : Char) :
    (∃ u, isLeading u = false ∧ isTrailing u = false ∧ encodeChar c = [u] ∧
      Char.ofNat u.toNat = c) ∨
    ∃ u v, isLeading u ∧ isTrailing v ∧ encodeChar c = [u, v] ∧ pair u v = c := by
  have hc := toNat_lt c
  rcases Nat.lt_or_ge c.toNat 0x10000 with hlt | hge
  · have hu : (UInt16.ofNat c.toNat).toNat = c.toNat := UInt16.toNat_ofNat_of_lt hlt
    refine .inl ⟨UInt16.ofNat c.toNat, ?_, ?_, if_pos hlt, ?_⟩
    · rw [← Bool.not_eq_true, isLeading_iff, hu]
      omega
    · rw [← Bool.not_eq_true, isTrailing_iff, hu]
      omega
    · rw [hu, Char.ofNat_toNat]
  · have hu : (UInt16.ofNat (0xD800 + (c.toNat - 0x10000) / 0x400)).toNat =
        0xD800 + (c.toNat - 0x10000) / 0x400 :=
      UInt16.toNat_ofNat_of_lt (Nat.lt_of_le_of_lt (by omega : _ ≤ 0xDBFF) (by decide))
    have hv : (UInt16.ofNat (0xDC00 + (c.toNat - 0x10000) % 0x400)).toNat =
        0xDC00 + (c.toNat - 0x10000) % 0x400 :=
      UInt16.toNat_ofNat_of_lt (Nat.lt_of_le_of_lt (by omega : _ ≤ 0xDFFF) (by decide))
    refine .inr ⟨_, _, ?_, ?_, if_neg (Nat.not_lt.2 hge), ?_⟩
    · rw [isLeading_iff, hu]
      omega
    · rw [isTrailing_iff, hv]
      omega
    · have hn : 0x10000 + (0xD800 + (c.toNat - 0x10000) / 0x400 - 0xD800) * 0x400 +
          (0xDC00 + (c.toNat - 0x10000) % 0x400 - 0xDC00) = c.toNat := by omega
      rw [pair, hu, hv, hn, Char.ofNat_toNat]

/-! ## Encoded texts -/

theorem encode_cons (c : Char) (cs : List Char) : encode (c :: cs) = encodeChar c ++ encode cs :=
  List.flatMap_cons

/-- What texts are encoded as decodes to their characters. -/
theorem decode_encode (cs : List Char) : decode (encode cs) = cs.map some := by
  induction cs with
  | nil => rfl
  | cons c cs ih =>
    rw [encode_cons, List.map_cons, ← ih]
    rcases encodeChar_cases c with ⟨u, hlead, htrail, hunits, hchar⟩ | ⟨u, v, hu, hv, hunits, hchar⟩
    · rw [hunits, List.singleton_append, decode_plain hlead htrail, hchar]
    · rw [hunits, List.cons_append, List.singleton_append, decode_pair hu hv, hchar]

theorem isWellFormed_encode (cs : List Char) : isWellFormed (encode cs) := by
  rw [isWellFormed, decode_encode, List.all_map, List.all_eq_true]
  exact fun _ _ => rfl

theorem lossy_encode (s : String) : lossy (encode s.toList) = s := by
  rw [lossy, decode_encode, List.map_map, Function.comp_def]
  simp

/-! ## Mended units -/

/-- Units with U+FFFD in the place of every unpaired surrogate, behind the unit before them. -/
def mend (before : Option UInt16) : List UInt16 → List UInt16
  | [] => []
  | u :: rest => (if isUnpaired before u rest.head? then 0xFFFD else u) :: mend (some u) rest

theorem encodeChar_replacement : encodeChar replacement = [0xFFFD] := by decide

theorem mend_keep {before : Option UInt16} (h : isUnpaired before u rest.head? = false) :
    mend before (u :: rest) = u :: mend (some u) rest := by
  rw [mend, h, if_neg Bool.false_ne_true]

/-- What units that no pair runs into are decoded to is encoded as the mended units. -/
theorem encode_decoded (units : List UInt16) : ∀ before : Option UInt16,
    (before.any isLeading → units.head?.any isTrailing = false) →
      encode ((decode units).map fun c => c.getD replacement) = mend before units := by
  induction units using induction_units with
  | nil => exact fun _ _ => rfl
  | pair u v rest hu hv ih =>
    intro before _
    have hlead : isLeading v = false := not_isLeading_of_isTrailing hv
    rw [mend_keep (by simp [isUnpaired, hv, not_isTrailing_of_isLeading hu]),
      mend_keep (by simp [isUnpaired, hu, hlead]), ← ih (some v) (by simp [hlead]),
      decode_pair hu hv, List.map_cons, Option.getD_some, encode_cons, encodeChar_pair hu hv]
    rfl
  | unpaired u rest hu ih =>
    intro before hcut
    -- What is unpaired by itself is so behind `before`, and no pair runs from it into the rest.
    have hbehind : isUnpaired before u rest.head? := by grind [isUnpaired]
    have hnext : isLeading u → rest.head?.any isTrailing = false := by
      grind [isUnpaired, not_isTrailing_of_isLeading]
    rw [mend, if_pos hbehind, ← ih (some u) hnext, decode_unpaired hu, List.map_cons,
      Option.getD_none, encode_cons, encodeChar_replacement]
    rfl
  | plain u rest hlead htrail ih =>
    intro before _
    rw [mend_keep (by simp [isUnpaired, hlead, htrail]), ← ih (some u) (by simp [hlead]),
      decode_plain hlead htrail, List.map_cons, Option.getD_some, encode_cons,
      encodeChar_plain hlead htrail]
    rfl

/-- The text that units read as is encoded as the mended units. -/
theorem encode_lossy (units : List UInt16) : encode (lossy units).toList = mend none units := by
  rw [lossy, String.toList_ofList, encode_decoded units none (by simp)]

theorem encode_lossy_of_isWellFormed {units : List UInt16} (h : isWellFormed units) :
    encode (lossy units).toList = units := by
  rw [lossy, String.toList_ofList]
  induction units using induction_units with
  | nil => rfl
  | pair u v rest hu hv ih =>
    rw [isWellFormed, decode_pair hu hv, List.all_cons] at h
    rw [decode_pair hu hv, List.map_cons, Option.getD_some, encode_cons, encodeChar_pair hu hv,
      ih h]
    rfl
  | unpaired u rest hu ih =>
    rw [isWellFormed, decode_unpaired hu, List.all_cons] at h
    exact absurd h Bool.false_ne_true
  | plain u rest hlead htrail ih =>
    rw [isWellFormed, decode_plain hlead htrail, List.all_cons] at h
    rw [decode_plain hlead htrail, List.map_cons, Option.getD_some, encode_cons,
      encodeChar_plain hlead htrail, ih h]
    rfl

/-- The well-formed lists of units are the encodings of texts. -/
theorem isWellFormed_iff {units : List UInt16} :
    isWellFormed units ↔ ∃ s : String, encode s.toList = units :=
  ⟨fun h => ⟨_, encode_lossy_of_isWellFormed h⟩, fun ⟨_, h⟩ => h ▸ isWellFormed_encode _⟩

/-- One text is encoded as the mended units. -/
theorem encode_eq_mend_iff {units : List UInt16} {s : String} :
    encode s.toList = mend none units ↔ s = lossy units := by
  constructor
  · intro h
    rw [← lossy_encode s, h, ← encode_lossy, lossy_encode]
  · rintro rfl
    exact encode_lossy units

theorem encode_eq_nil_iff {s : String} : encode s.toList = [] ↔ s = "" := @encode_eq_mend_iff [] s

theorem lossy_ne_empty {units : List UInt16} (h : units ≠ []) : lossy units ≠ "" := by
  intro hempty
  cases units with
  | nil => exact h rfl
  | cons u rest => cases encode_eq_mend_iff.2 hempty.symm

end Questionnaire.Text.Utf16
