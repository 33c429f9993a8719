import Mathlib.Data.Nat.Basic
import Questionnaire.Proofs.Json.Reads

/-
  JSON text reads back as the value it was written for.

  The reader goes through a text as the writer made it: `scanString_escape` for one character of a
  string, `scanNumeral_digits` for a number, `readItems_render` and `readEntries_render` for the
  members of a container once each of them reads back, and `readsBack` for a value. All lemmas have
  the rest of the text behind what is read, which for a number must not go on with a digit, a point
  or an exponent. The writer's layout only decides which blanks are passed over.

  A value fits when it is not nested deeper than the reader goes and its numbers are naturals of 64
  bits; floats are left out, since the reader computes them inexactly.
-/

namespace Questionnaire.Json

/-! ## Strings -/

/-- A character as the scanner finds it: a control character without an escape letter of its own is
met as a code unit. -/
def pieceOf (c : Char) : Piece :=
  if 0x20 ≤ c.toNat ∨ c.toNat ∈ [0x08, 0x09, 0x0A, 0x0C, 0x0D] then .char c
  else .unit (UInt16.ofNat c.toNat)

theorem hexDigit?_digitChar {d : Nat} (h : d < 16) : hexDigit? (Nat.digitChar d) = some d := by
  revert d
  decide

theorem hexUnit?_control {n : Nat} (h : n < 0x20) :
    hexUnit? '0' '0' (Nat.digitChar (n / 16)) (Nat.digitChar (n % 16)) = some (UInt16.ofNat n) := by
  have hzero : hexDigit? '0' = some 0 := by decide
  have hvalue : ((0 * 16 + 0) * 16 + n / 16) * 16 + n % 16 = n := by omega
  rw [hexUnit?, hzero, hexDigit?_digitChar (show n / 16 < 16 by omega),
    hexDigit?_digitChar (show n % 16 < 16 by omega)]
  simp only [Option.bind_eq_bind, Option.bind_some, hvalue]
  rfl

theorem scanString_char {c : Char} (hquote : c ≠ '"') (hslash : c ≠ '\\') (hc : 0x20 ≤ c.toNat)
    (rest : List Char) :
    scanString (c :: rest) = (.char c :: (scanString rest).1, (scanString rest).2) := by
  rw [scanString]
  · rw [if_neg (by omega)]
  all_goals simp_all

/-- An escape by a single letter. -/
theorem scanString_escaped {c e : Char} (hc : c ≠ 'u') (h : escaped? c = some e)
    (rest : List Char) :
    scanString ('\\' :: c :: rest) = (.char e :: (scanString rest).1, (scanString rest).2) := by
  rw [scanString, h]
  all_goals simp_all

theorem scanString_unit {a b c d : Char} {u : UInt16} (h : hexUnit? a b c d = some u)
    (rest : List Char) :
    scanString ('\\' :: 'u' :: a :: b :: c :: d :: rest) =
      (.unit u :: (scanString rest).1, (scanString rest).2) := by
  rw [scanString, h]

/-- What is written for a character is scanned as that character. -/
theorem scanString_escape (c : Char) (rest : List Char) :
    scanString (escape c ++ rest) =
      (pieceOf c :: (scanString rest).1, (scanString rest).2) := by
  have hletter : ∀ n letter, c.toNat = n → n ∈ [0x08, 0x09, 0x0A, 0x0C, 0x0D] → letter ≠ 'u' →
      escaped? letter = some (Char.ofNat n) →
      scanString ('\\' :: letter :: rest) =
        (pieceOf c :: (scanString rest).1, (scanString rest).2) := by
    intro n letter hn hmem hu hescaped
    rw [scanString_escaped hu hescaped, pieceOf, if_pos (.inr (hn ▸ hmem)), ← hn, Char.ofNat_toNat]
  unfold escape
  split_ifs with hquote hslash hplain h8 h9 hA hC hD
  · subst hquote
    exact scanString_escaped (by decide) rfl rest
  · subst hslash
    exact scanString_escaped (by decide) rfl rest
  · rw [pieceOf, if_pos (.inl hplain)]
    exact scanString_char hquote hslash hplain rest
  · exact hletter _ 'b' h8 (by decide) (by decide) rfl
  · exact hletter _ 't' h9 (by decide) (by decide) rfl
  · exact hletter _ 'n' hA (by decide) (by decide) rfl
  · exact hletter _ 'f' hC (by decide) (by decide) rfl
  · exact hletter _ 'r' hD (by decide) (by decide) rfl
  · rw [pieceOf, if_neg (by simp [*])]
    exact scanString_unit (hexUnit?_control (by omega)) rest

theorem scanString_quoted (cs rest : List Char) :
    scanString (cs.flatMap escape ++ '"' :: rest) = (cs.map pieceOf, .ok rest) := by
  induction cs with
  | nil => rw [List.flatMap_nil, List.nil_append, scanString]; rfl
  | cons c cs ih => rw [List.flatMap_cons, List.append_assoc, scanString_escape, ih, List.map_cons]

theorem joinPieces_unit {u : UInt16} (h : u.toNat < 0x20) (pieces : List Piece) :
    joinPieces (.unit u :: pieces) = (joinPieces pieces).map (Char.ofNat u.toNat :: ·) := by
  have hleading : Text.Utf16.isLeading u = false := by simp [Text.Utf16.isLeading]; omega
  have htrailing : Text.Utf16.isTrailing u = false := by simp [Text.Utf16.isTrailing]; omega
  cases pieces with
  | nil => simp [joinPieces, hleading, htrailing]
  | cons p pieces => cases p <;> simp [joinPieces, hleading, htrailing]

theorem joinPieces_map_pieceOf (cs : List Char) : joinPieces (cs.map pieceOf) = some cs := by
  induction cs with
  | nil => rfl
  | cons c cs ih =>
    rw [List.map_cons, pieceOf]
    split
    · rw [joinPieces, ih, Option.map_some]
    · next h =>
      have hc : c.toNat < 0x20 := by simp_all
      have hsize : (UInt16.ofNat c.toNat).toNat = c.toNat := by
        rw [UInt16.toNat_ofNat', Nat.mod_eq_of_lt (by omega)]
      rw [joinPieces_unit (by rw [hsize]; exact hc), ih, hsize, Option.map_some, Char.ofNat_toNat]

/-- A string reads back. -/
theorem readString_quoted (s : String) (rest : List Char) :
    readString (s.toList.flatMap escape ++ '"' :: rest) = (.ok s, some rest) := by
  rw [readString, scanString_quoted]
  simp only [joinPieces_map_pieceOf, String.ofList_toList]

/-! ## Numbers -/

/-- A text that does not go on with a numeral. -/
def EndsNumeral (cs : List Char) : Prop :=
  ∀ c ∈ cs.head?, c.isDigit = false ∧ c ≠ '.' ∧ c ≠ 'e' ∧ c ≠ 'E'

theorem endsNumeral_nil : EndsNumeral [] := by simp [EndsNumeral]

theorem takeDigits_append {ds rest : List Char} (hds : ∀ c ∈ ds, c.isDigit)
    (hrest : EndsNumeral rest) :
    takeDigits (ds ++ rest) = (ds.map fun c => c.toNat - '0'.toNat, rest) := by
  induction ds with
  | nil =>
    cases rest with
    | nil => rfl
    | cons c rest => simp [takeDigits, (hrest c rfl).1]
  | cons d ds ih =>
    rw [List.cons_append, takeDigits, if_pos (hds d List.mem_cons_self),
      ih fun c hc => hds c (List.mem_cons_of_mem _ hc), List.map_cons]

theorem isDigit_of_mem_digitChars {n : Nat} {c : Char} (h : c ∈ Decimal.digitChars n) :
    c.isDigit :=
  Nat.isDigit_of_mem_toDigits (by decide) (by decide) h

/-- A number that is not zero does not start with a zero. -/
theorem head?_digitChars {n : Nat} (h : 0 < n) : (Decimal.digitChars n).head? ≠ some '0' := by
  induction n using Nat.strongRecOn with
  | ind n ih =>
    rw [Decimal.digitChars, Nat.toDigits_eq_if (by decide)]
    split
    · next hlt =>
      have hdigit : ∀ d, d < 10 → 0 < d → Nat.digitChar d ≠ '0' := by decide
      simpa using hdigit n hlt h
    · have hhead := ih (n / 10) (by omega) (by omega)
      rw [Decimal.digitChars] at hhead
      rw [List.head?_append, Option.or_eq_left_of_isSome]
      · exact hhead
      · rw [List.isSome_head?]
        exact Nat.toDigits_ne_nil

theorem scanWhole_digits (n : Nat) {rest : List Char} (hrest : EndsNumeral rest) :
    scanWhole (Decimal.digitChars n ++ rest) =
      .ok ((Decimal.digitChars n).map fun c => c.toNat - '0'.toNat, rest) := by
  have htake := takeDigits_append (fun c => isDigit_of_mem_digitChars (n := n)) hrest
  rcases Nat.eq_zero_or_pos n with rfl | hpos
  · have hnone := @takeDigits_append [] rest (List.forall_mem_nil _) hrest
    rw [List.nil_append] at hnone
    show (if (takeDigits rest).1.isEmpty then _ else _) = _
    rw [hnone]
    rfl
  · have hhead := head?_digitChars hpos
    have hne : Decimal.digitChars n ≠ [] := Nat.toDigits_ne_nil
    cases hdigits : Decimal.digitChars n with
    | nil => exact absurd hdigits hne
    | cons d ds =>
      rw [hdigits] at hhead htake
      rw [List.cons_append] at htake ⊢
      rw [scanWhole, someDigits, htake]
      · rfl
      · rintro rest' heq
        simp_all

theorem le_ofDigitChars (cs : List Char) (n : Nat) : n ≤ Nat.ofDigitChars 10 cs n := by
  induction cs generalizing n with
  | nil => exact Nat.le_refl n
  | cons c cs ih =>
    rw [Nat.ofDigitChars_cons]
    exact Nat.le_trans (by omega) (ih _)

theorem absorb_digits {cs : List Char} {n : Nat} (h : Nat.ofDigitChars 10 cs n < UInt64.size) :
    absorb n (cs.map fun c => c.toNat - '0'.toNat) = (Nat.ofDigitChars 10 cs n, []) := by
  induction cs generalizing n with
  | nil => rfl
  | cons c cs ih =>
    rw [Nat.ofDigitChars_cons, Nat.mul_comm] at h ⊢
    have hle := le_ofDigitChars cs (n * 10 + (c.toNat - '0'.toNat))
    rw [List.map_cons, absorb, if_pos (Nat.lt_of_le_of_lt hle h), ih h]

theorem scanFraction_of_ends {rest : List Char} (h : EndsNumeral rest) :
    scanFraction rest = .ok ([], rest) := by
  cases rest with
  | nil => rfl
  | cons c rest =>
    rw [scanFraction]
    rintro rest' heq
    exact (h c rfl).2.1 (List.cons.inj heq).1

theorem scanExponent_of_ends {rest : List Char} (h : EndsNumeral rest) :
    scanExponent rest = .ok (none, rest) := by
  cases rest with
  | nil => rfl
  | cons c rest =>
    unfold scanExponent
    exact if_neg (not_or.2 (h c rfl).2.2)

/-- A natural number of 64 bits reads back. -/
theorem scanNumeral_digits {n : Nat} (h : n < UInt64.size) {rest : List Char}
    (hrest : EndsNumeral rest) :
    ∃ numeral, scanNumeral (Decimal.digitChars n ++ rest) = .ok (numeral, rest) ∧
      numeral.value = some (.natural n) := by
  refine ⟨⟨false, (Decimal.digitChars n).map fun c => c.toNat - '0'.toNat, [], none⟩, ?_, ?_⟩
  · cases hdigits : Decimal.digitChars n with
    | nil => exact absurd hdigits Nat.toDigits_ne_nil
    | cons d ds =>
      have hminus : d ≠ '-' := by
        rintro rfl
        have := isDigit_of_mem_digitChars (hdigits ▸ List.mem_cons_self)
        simp at this
      have hwhole := scanWhole_digits n hrest
      rw [hdigits, List.cons_append] at hwhole
      rw [List.cons_append, scanNumeral, hwhole]
      · simp only [bind, Except.bind, scanFraction_of_ends hrest, scanExponent_of_ends hrest]
        rfl
      · exact fun rest' heq => hminus (List.cons.inj heq).1
  · have hvalue : Nat.ofDigitChars 10 (Decimal.digitChars n) 0 = n :=
      Nat.ofDigitChars_ten_toDigits
    have habsorb := absorb_digits (hvalue.symm ▸ h : Nat.ofDigitChars 10 _ 0 < _)
    rw [hvalue] at habsorb
    rw [Numeral.value, habsorb]
    rfl

/-! ## Blanks -/

theorem skipSpaces_append {blanks : List Char} (h : ∀ c ∈ blanks, isSpace c) (cs : List Char) :
    skipSpaces (blanks ++ cs) = skipSpaces cs :=
  List.dropWhile_append_of_pos h

theorem skipSpaces_cons {c : Char} (h : isSpace c = false) (cs : List Char) :
    skipSpaces (c :: cs) = c :: cs :=
  List.dropWhile_cons_of_neg (by simp [h])

theorem readValue_blanks {blanks : List Char} (h : ∀ c ∈ blanks, isSpace c) (fuel depth : Nat)
    (cs : List Char) : readValue fuel depth (blanks ++ cs) = readValue fuel depth cs := by
  cases fuel with
  | zero => rfl
  | succ fuel => rw [readValue, readValue, skipSpaces_append h]

theorem readItems_blanks {blanks : List Char} (h : ∀ c ∈ blanks, isSpace c) (fuel depth : Nat)
    (cs : List Char) : readItems fuel depth (blanks ++ cs) = readItems fuel depth cs := by
  cases fuel with
  | zero => rfl
  | succ fuel => rw [readItems, readItems, readValue_blanks h]

theorem readEntries_blanks {blanks : List Char} (h : ∀ c ∈ blanks, isSpace c) (fuel depth : Nat)
    (cs : List Char) : readEntries fuel depth (blanks ++ cs) = readEntries fuel depth cs := by
  cases fuel with
  | zero => rfl
  | succ fuel => rw [readEntries, readEntries, skipSpaces_append h]

theorem isSpace_of_mem_line {l : Layout} {level : Nat} : ∀ c ∈ l.line level, isSpace c := by
  intro c hc
  rw [Layout.line] at hc
  split at hc
  · cases hc
  · rcases List.mem_cons.1 hc with rfl | hc
    · rfl
    · rw [List.eq_of_mem_replicate hc]
      rfl

theorem colon_eq (l : Layout) :
    ∃ blanks, l.colon = ':' :: blanks ∧ ∀ c ∈ blanks, isSpace c := by
  rw [Layout.colon]
  split
  · exact ⟨[' '], rfl, by simp [isSpace]⟩
  · exact ⟨[], rfl, List.forall_mem_nil _⟩

theorem endsNumeral_cons {c : Char} (h : c ∈ [',', ']', '\x7d']) (cs : List Char) :
    EndsNumeral (c :: cs) := by
  rintro d hd
  cases hd
  simp only [List.mem_cons, List.not_mem_nil, or_false] at h
  rcases h with rfl | rfl | rfl <;> decide

theorem endsNumeral_blanks {blanks rest : List Char} (h : ∀ c ∈ blanks, isSpace c)
    (hrest : EndsNumeral rest) : EndsNumeral (blanks ++ rest) := by
  cases blanks with
  | nil => exact hrest
  | cons b blanks =>
    rintro c hc
    cases hc
    have hspace := h b List.mem_cons_self
    simp only [isSpace, Bool.or_eq_true, decide_eq_true_eq] at hspace
    rcases hspace with ((rfl | rfl) | rfl) | rfl <;> decide

/-! ## Values -/

/-- A value of so many containers inside one another at most, all of whose numbers are naturals of
64 bits. -/
inductive Fits : Nat → Json → Prop
  | null {n : Nat} : Fits n .null
  | bool {n : Nat} (b : Bool) : Fits n (.bool b)
  | natural {n m : Nat} (h : m < UInt64.size) : Fits n (.number (.natural m))
  | text {n : Nat} (s : String) : Fits n (.text s)
  | array {n : Nat} {items : List Json} (h : ∀ j ∈ items, Fits n j) : Fits (n + 1) (.array items)
  | object {n : Nat} {entries : List (String × Json)} (h : ∀ e ∈ entries, Fits n e.2) :
      Fits (n + 1) (.object entries)

theorem fits_ofList {α : Type} {n : Nat} {write : α → Json} {as : List α}
    (h : ∀ a ∈ as, Fits n (write a)) :
    Fits (n + 1) (ofList write as) :=
  .array fun j hj => by
    obtain ⟨a, ha, rfl⟩ := List.mem_map.1 hj
    exact h a ha

theorem fits_ofMap {α : Type} {n : Nat} {write : α → Json} {m : SortedMap α}
    (h : ∀ a, Fits n (write a)) : Fits (n + 1) (ofMap write m) :=
  .object fun e he => by
    obtain ⟨entry, _, rfl⟩ := List.mem_map.1 he
    exact h entry.2

theorem isSpace_of_isDigit {c : Char} (h : c.isDigit) : isSpace c = false := by
  by_contra hspace
  simp only [isSpace, Bool.not_eq_false, Bool.or_eq_true, decide_eq_true_eq] at hspace
  rcases hspace with ((rfl | rfl) | rfl) | rfl <;> exact absurd h (by decide)

/-- The text of a value starts with its first token, which is not the end of a list. -/
theorem render_eq_cons {n : Nat} {j : Json} (h : Fits n j) (l : Layout) (level : Nat) :
    ∃ c cs, render l level j = c :: cs ∧ isSpace c = false ∧ c ≠ ']' := by
  cases h with
  | null => exact ⟨_, _, rfl, by decide⟩
  | bool b => cases b <;> exact ⟨_, _, rfl, by decide⟩
  | @natural _ m _ =>
    rw [render, Number.toText, String.toList_ofList]
    cases hdigits : Decimal.digitChars m with
    | nil => exact absurd hdigits Nat.toDigits_ne_nil
    | cons d ds =>
      have hdigit := isDigit_of_mem_digitChars (hdigits ▸ List.mem_cons_self)
      refine ⟨d, ds, rfl, isSpace_of_isDigit hdigit, ?_⟩
      rintro rfl
      exact absurd hdigit (by decide)
  | text s => exact ⟨_, _, rfl, by decide⟩
  | @array n items _ =>
    cases items <;> exact ⟨'[', _, rfl, by decide⟩
  | @object n entries _ =>
    cases entries <;> exact ⟨'\x7b', _, rfl, by decide⟩

/-- Whatever ends a numeral may follow the text of a value: it reads back, with containers to spare
and fuel for the whole text. -/
def ReadsBack (l : Layout) (n : Nat) (j : Json) : Prop :=
  ∀ level fuel depth rest, n ≤ depth → EndsNumeral rest →
    2 * (render l level j ++ rest).length < fuel →
      readValue fuel depth (render l level j ++ rest) = (reading j, some rest)

theorem readsBack_natural {l : Layout} {n m : Nat} (h : m < UInt64.size) :
    ReadsBack l n (.number (.natural m)) := by
  intro level fuel depth rest _ hrest hfuel
  obtain ⟨numeral, hscan, hvalue⟩ := scanNumeral_digits h hrest
  rw [render, Number.toText, String.toList_ofList] at hfuel ⊢
  obtain ⟨fuel, rfl⟩ := Nat.exists_eq_add_one_of_ne_zero (Nat.ne_zero_of_lt hfuel)
  cases hdigits : Decimal.digitChars m with
  | nil => exact absurd hdigits Nat.toDigits_ne_nil
  | cons d ds =>
    have hdigit := isDigit_of_mem_digitChars (hdigits ▸ List.mem_cons_self)
    have hspace : isSpace d = false := isSpace_of_isDigit hdigit
    rw [hdigits, List.cons_append] at hscan
    rw [List.cons_append, readValue, skipSpaces_cons hspace]
    split
    case h_8 =>
      rename_i heq
      obtain ⟨rfl, rfl⟩ := List.cons.inj heq
      simp only [hdigit, or_true, if_true, hscan, hvalue]
      rfl
    all_goals simp_all

/-- What a list of further items is read as, each item reading back on its own. -/
theorem readItems_render {l : Layout} {n level : Nat} {items : List Json}
    (hitems : ∀ j ∈ items, ReadsBack l n j) {item : Json}
    (hitem : ReadsBack l n item) {fuel depth : Nat} (hdepth : n ≤ depth) {blanks rest : List Char}
    (hblanks : ∀ c ∈ blanks, isSpace c)
    (hfuel : 2 * (render l level item ++
      (renderItems l level items ++ (blanks ++ ']' :: rest))).length + 1 < fuel) :
    readItems fuel depth (render l level item ++
        (renderItems l level items ++ (blanks ++ ']' :: rest))) =
      ⟨readingItems (item :: items), none, some rest⟩ := by
  obtain ⟨fuel, rfl⟩ := Nat.exists_eq_add_one_of_ne_zero (Nat.ne_zero_of_lt hfuel)
  induction items generalizing item fuel with
  | nil =>
    rw [renderItems, List.nil_append] at hfuel ⊢
    rw [readItems, hitem level fuel depth _ hdepth
      (endsNumeral_blanks hblanks (endsNumeral_cons (by simp) rest)) (by omega)]
    simp only [skipSpaces_append hblanks, skipSpaces_cons (show isSpace ']' = false from rfl)]
    rfl
  | cons next items ih =>
    rw [renderItems] at hfuel ⊢
    simp only [List.cons_append, List.append_assoc, List.length_append, List.length_cons] at hfuel ⊢
    obtain ⟨fuel, rfl⟩ := Nat.exists_eq_add_one_of_ne_zero (show fuel ≠ 0 by omega)
    rw [readItems, hitem level _ depth _ hdepth (endsNumeral_cons (by simp) _) (by
      simp only [List.length_append, List.length_cons]; omega)]
    simp only [skipSpaces_cons (show isSpace ',' = false from rfl)]
    rw [readItems_blanks isSpace_of_mem_line,
      ih (fun j hj => hitems j (List.mem_cons_of_mem _ hj)) (hitems next List.mem_cons_self) _ (by
        simp only [List.length_append, List.length_cons]; omega)]
    rfl

theorem skipSpaces_quote (s : String) (cs : List Char) :
    skipSpaces (quote s ++ cs) = quote s ++ cs := rfl

/-- An entry whose value reads back is read, and so are those behind a comma. -/
theorem readEntries_quote (l : Layout) (key : String) {fuel depth : Nat}
    {cs after rest : List Char} {value : Reading}
    (h : readValue fuel depth cs = (value, some after))
    (hafter : skipSpaces after = ',' :: rest) :
    readEntries (fuel + 1) depth (quote key ++ (l.colon ++ cs)) =
      (readEntries fuel depth rest).cons (.ok key, value) := by
  obtain ⟨blanks, hcolon, hblanks⟩ := colon_eq l
  rw [quote, hcolon, List.cons_append, List.cons_append, List.append_assoc, readEntries,
    skipSpaces_cons (by rfl)]
  simp only [List.cons_append, List.nil_append, readString_quoted,
    skipSpaces_cons (show isSpace ':' = false from rfl), readValue_blanks hblanks, h, hafter]

/-- An entry before the end of its object is read as the last one. -/
theorem readEntries_quote_last (l : Layout) (key : String) {fuel depth : Nat}
    {cs after rest : List Char} {value : Reading}
    (h : readValue fuel depth cs = (value, some after))
    (hafter : skipSpaces after = '\x7d' :: rest) :
    readEntries (fuel + 1) depth (quote key ++ (l.colon ++ cs)) =
      ⟨[(.ok key, value)], none, some rest⟩ := by
  obtain ⟨blanks, hcolon, hblanks⟩ := colon_eq l
  rw [quote, hcolon, List.cons_append, List.cons_append, List.append_assoc, readEntries,
    skipSpaces_cons (by rfl)]
  simp only [List.cons_append, List.nil_append, readString_quoted,
    skipSpaces_cons (show isSpace ':' = false from rfl), readValue_blanks hblanks, h, hafter]

/-- What a list of further entries is read as, each value reading back on its own. -/
theorem readEntries_render {l : Layout} {n level : Nat} {entries : List (String × Json)}
    (hentries : ∀ e ∈ entries, ReadsBack l n e.2) {key : String} {value : Json}
    (hvalue : ReadsBack l n value) {fuel depth : Nat} (hdepth : n ≤ depth)
    {blanks rest : List Char} (hblanks : ∀ c ∈ blanks, isSpace c)
    (hfuel : 2 * (quote key ++ (l.colon ++ (render l level value ++
      (renderEntries l level entries ++ (blanks ++ '\x7d' :: rest))))).length + 1 < fuel) :
    readEntries fuel depth (quote key ++ (l.colon ++ (render l level value ++
        (renderEntries l level entries ++ (blanks ++ '\x7d' :: rest))))) =
      ⟨readingEntries ((key, value) :: entries), none, some rest⟩ := by
  obtain ⟨fuel, rfl⟩ := Nat.exists_eq_add_one_of_ne_zero (Nat.ne_zero_of_lt hfuel)
  induction entries generalizing key value fuel with
  | nil =>
    rw [renderEntries, List.nil_append] at hfuel ⊢
    have hlast := hvalue level fuel depth (blanks ++ '\x7d' :: rest) hdepth
      (endsNumeral_blanks hblanks (endsNumeral_cons (by simp) rest)) (by
        simp only [List.length_append] at hfuel ⊢; omega)
    rw [readEntries_quote_last l key hlast
      ((skipSpaces_append hblanks _).trans (skipSpaces_cons rfl rest))]
    rfl
  | cons next entries ih =>
    rw [renderEntries] at hfuel ⊢
    simp only [List.cons_append, List.append_assoc, List.length_append, List.length_cons] at hfuel ⊢
    obtain ⟨fuel, rfl⟩ := Nat.exists_eq_add_one_of_ne_zero (show fuel ≠ 0 by omega)
    rw [readEntries_quote l key (hvalue level _ depth _ hdepth (endsNumeral_cons (by simp) _) (by
        simp only [List.length_append, List.length_cons]; omega)) (skipSpaces_cons rfl _),
      readEntries_blanks isSpace_of_mem_line,
      ih (fun e he => hentries e (List.mem_cons_of_mem _ he)) (hentries next List.mem_cons_self) _
        (by simp only [List.length_append, List.length_cons]; omega)]
    rfl

theorem readsBack_array {l : Layout} {n : Nat} {items : List Json} (hfits : ∀ j ∈ items, Fits n j)
    (h : ∀ j ∈ items, ReadsBack l n j) : ReadsBack l (n + 1) (.array items) := by
  intro level fuel depth rest hdepth _ hfuel
  obtain ⟨fuel, rfl⟩ := Nat.exists_eq_add_one_of_ne_zero (Nat.ne_zero_of_lt hfuel)
  have hopen : (depth == 0) = false := by rw [beq_eq_false_iff_ne]; omega
  cases items with
  | nil =>
    rw [reading, ← hopen]
    rfl
  | cons item items =>
    obtain ⟨c, cs, hrender, hspace, hc⟩ :=
      render_eq_cons (hfits item List.mem_cons_self) l (level + 1)
    rw [render] at hfuel ⊢
    simp only [List.cons_append, List.append_assoc, List.nil_append, List.length_append,
      List.length_cons] at hfuel ⊢
    have hitems := readItems_render (fun j hj => h j (List.mem_cons_of_mem _ hj))
      (h item List.mem_cons_self) (show n ≤ depth - 1 by omega) (@isSpace_of_mem_line l level)
      (show 2 * (render l (level + 1) item ++ (renderItems l (level + 1) items ++
          (l.line level ++ ']' :: rest))).length + 1 < fuel by
        simp only [List.length_append, List.length_cons]; omega)
    rw [hrender, List.cons_append] at hitems ⊢
    rw [readValue, skipSpaces_cons (by rfl)]
    simp only [skipSpaces_append isSpace_of_mem_line]
    rw [skipSpaces_cons hspace]
    -- What the list opens with is neither its end nor the end of the text.
    split
    · next heq => exact absurd (List.cons.inj heq).1 hc
    · next heq => cases heq
    · rw [hitems, hopen]
      rfl

theorem readsBack_object {l : Layout} {n : Nat} {entries : List (String × Json)}
    (h : ∀ e ∈ entries, ReadsBack l n e.2) : ReadsBack l (n + 1) (.object entries) := by
  intro level fuel depth rest hdepth _ hfuel
  obtain ⟨fuel, rfl⟩ := Nat.exists_eq_add_one_of_ne_zero (Nat.ne_zero_of_lt hfuel)
  have hopen : (depth == 0) = false := by rw [beq_eq_false_iff_ne]; omega
  cases entries with
  | nil =>
    rw [reading, ← hopen]
    rfl
  | cons entry entries =>
    rw [render] at hfuel ⊢
    simp only [List.cons_append, List.append_assoc, List.nil_append, List.length_append,
      List.length_cons] at hfuel ⊢
    have hentries := readEntries_render (fun e he => h e (List.mem_cons_of_mem _ he))
      (h entry List.mem_cons_self) (show n ≤ depth - 1 by omega) (@isSpace_of_mem_line l level)
      (show 2 * (quote entry.1 ++ (l.colon ++ (render l (level + 1) entry.2 ++
          (renderEntries l (level + 1) entries ++ (l.line level ++ '\x7d' :: rest))))).length + 1 <
            fuel by
        simp only [List.length_append, List.length_cons]; omega)
    rw [readValue, skipSpaces_cons (by rfl)]
    simp only [skipSpaces_append isSpace_of_mem_line, skipSpaces_quote]
    rw [hopen]
    show (let m := readEntries fuel (depth - 1) (quote entry.1 ++ _)
      (Reading.object false m.members m.ending, m.rest)) = _
    rw [hentries]
    rfl

/-- The text of a value that fits reads back as it. -/
theorem readsBack {l : Layout} {n : Nat} {j : Json} (h : Fits n j) : ReadsBack l n j := by
  induction h with
  | natural h => exact readsBack_natural h
  | array hfits ih => exact readsBack_array hfits ih
  | object _ ih => exact readsBack_object ih
  | text s =>
    intro level fuel depth rest _ _ hfuel
    obtain ⟨fuel, rfl⟩ := Nat.exists_eq_add_one_of_ne_zero (Nat.ne_zero_of_lt hfuel)
    rw [render, quote, List.cons_append, List.cons_append, List.append_assoc, readValue,
      skipSpaces_cons (by rfl)]
    simp only [List.cons_append, List.nil_append, readString_quoted]
    rfl
  | null =>
    intro level fuel depth rest _ _ hfuel
    obtain ⟨fuel, rfl⟩ := Nat.exists_eq_add_one_of_ne_zero (Nat.ne_zero_of_lt hfuel)
    rfl
  | bool b =>
    intro level fuel depth rest _ _ hfuel
    obtain ⟨fuel, rfl⟩ := Nat.exists_eq_add_one_of_ne_zero (Nat.ne_zero_of_lt hfuel)
    cases b <;> rfl

/-! ## Documents -/

/-- The text of a value, blanks behind it, is a document of nothing else. -/
theorem ofText_toText (l : Layout) {n : Nat} (hn : n ≤ depthLimit) {j : Json} (h : Fits n j)
    {blanks : List Char} (hblanks : ∀ c ∈ blanks, isSpace c) :
    Document.ofText (j.toText l ++ String.ofList blanks) = ⟨j.reading, some blanks⟩ := by
  have hends : EndsNumeral blanks := by
    rw [← List.append_nil blanks]
    exact endsNumeral_blanks hblanks endsNumeral_nil
  have hread := readsBack h (l := l) 0 (2 * (render l 0 j ++ blanks).length + 2) depthLimit blanks
    hn hends (by omega)
  rw [Document.ofText, toText, String.toList_append, String.toList_ofList, String.toList_ofList,
    hread]

/-- A decoder that reads a value reads it from its text, too, blanks behind it or none. -/
theorem Decoder.Reads.fromText {α : Type} {d : Decoder α} {j : Json} {a : α} (h : Reads d j a)
    (l : Layout) {n : Nat} (hn : n ≤ depthLimit) (hfits : Fits n j) {blanks : List Char}
    (hblanks : ∀ c ∈ blanks, isSpace c) :
    d.fromText (j.toText l ++ String.ofList blanks) = ⟨.ok a, []⟩ := by
  have hclosed : skipSpaces blanks = [] := by
    rw [← List.append_nil blanks, skipSpaces_append hblanks]
    rfl
  rw [Decoder.fromText, ofText_toText l hn hfits hblanks]
  simp only [h.read, Decoded.pure_bind, Document.isClosed, hclosed]
  rfl

/-- Blanks behind the text are none at all or a line break. -/
theorem Decoder.Reads.fromText_line {α : Type} {d : Decoder α} {j : Json} {a : α} (h : Reads d j a)
    (l : Layout) {n : Nat} (hn : n ≤ depthLimit) (hfits : Fits n j) :
    d.fromText (j.toText l) = ⟨.ok a, []⟩ ∧ d.fromText (j.toText l ++ "\n") = ⟨.ok a, []⟩ := by
  have hbare := h.fromText l hn hfits (List.forall_mem_nil _)
  rw [String.ofList_nil, String.append_empty] at hbare
  exact ⟨hbare, h.fromText l hn hfits (List.forall_mem_singleton.2 rfl)⟩

end Questionnaire.Json
