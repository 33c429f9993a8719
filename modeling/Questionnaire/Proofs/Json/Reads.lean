import Questionnaire.Package.Encode
import Questionnaire.Proofs.Json.Values

/-
  Decoders read back what is written.

  `Reads d j a` says that from the value `j` a decoder reads `a` and leaves no notice, whether `j`
  comes from a text or as a value. There is one lemma for each way to make decoders from decoders,
  beside the writer that goes with it. A record is written slot by slot in the order of its slots,
  some left out: `Fills` goes through slots and entries side by side, and `reads_record` lifts it to
  the record.
-/

namespace Questionnaire.Json.Decoder

variable {α β σ : Type}

/-- A value without repeated keys, from which a decoder reads `a` and leaves no notice. -/
structure Reads (d : Decoder α) (j : Json) (a : α) : Prop where
  distinct : j.Distinct
  read : ∀ origin, d origin j.reading = pure a

theorem Reads.fromValue {d : Decoder α} {j : Json} {a : α} (h : Reads d j a) :
    d.fromValue j = pure a := h.read .value

theorem Reads.value? {d : Decoder α} {j : Json} {a : α} (h : Reads d j a) :
    d.value? j = some a := by
  rw [Decoder.value?, h.fromValue]
  rfl

/-! ## Values other than null -/

theorem text_ne_null (s : String) : Json.text s ≠ .null := by simp

theorem array_ne_null (items : List Json) : Json.array items ≠ .null := by simp

theorem object_ne_null (entries : List (String × Json)) : Json.object entries ≠ .null := by simp

/-! ## Scalars -/

theorem reads_text (s : String) : Reads text (.text s) s := ⟨.text s, fun _ => rfl⟩

theorem reads_json {j : Json} (h : j.Distinct) : Reads json j j := by
  refine ⟨h, fun _ => ?_⟩
  rw [json, content_reading, Except.map, resolve_of_distinct h]
  rfl

theorem reading_eq_null {j : Json} : j.reading = .null ↔ j = .null := by
  cases j <;> simp [reading]

theorem reads_option {d : Decoder α} {write : α → Json} {o : Option α}
    (h : ∀ a ∈ o, Reads d (write a) a ∧ write a ≠ .null) :
    Reads (option d) (ofOption write o) o := by
  cases o with
  | none => exact ⟨.null, fun _ => rfl⟩
  | some a =>
    obtain ⟨hread, hnull⟩ := h a rfl
    refine ⟨hread.distinct, fun origin => ?_⟩
    rw [ofOption, option, hread.read]
    · rfl
    · exact fun heq => hnull (reading_eq_null.1 heq)

theorem reads_text? (s : Option String) : Reads (option text) (ofText? s) s :=
  reads_option fun s _ => ⟨reads_text s, text_ne_null s⟩

/-! ## Lists and maps -/

/-- What is read from a member may be another thing than was written, and of another type. -/
theorem reads_list_map {d : Decoder β} {write : α → Json} {f : α → β} {as : List α}
    (h : ∀ a ∈ as, Reads d (write a) (f a)) : Reads (list d) (ofList write as) (as.map f) := by
  refine ⟨.array fun j hj => ?_, fun origin => ?_⟩
  · obtain ⟨a, ha, rfl⟩ := List.mem_map.1 hj
    exact (h a ha).distinct
  · have hitems : items d origin (readingItems (as.map write)) = pure (as.map f) := by
      induction as with
      | nil => rfl
      | cons a as ih =>
        rw [List.map_cons, readingItems, items, (h a List.mem_cons_self).read,
          ih fun a ha => h a (List.mem_cons_of_mem _ ha)]
        rfl
    rw [ofList, reading, list, hitems]
    rfl

theorem reads_list {d : Decoder α} {write : α → Json} {as : List α}
    (h : ∀ a ∈ as, Reads d (write a) a) : Reads (list d) (ofList write as) as := by
  have hmap := reads_list_map (f := id) h
  rwa [List.map_id] at hmap

theorem reads_texts (ss : List String) : Reads (list text) (ofTexts ss) ss :=
  reads_list fun s _ => reads_text s

theorem reads_ordered {d : Decoder β} {write : α → Json} {f : α → β} {es : List (String × α)}
    (hkeys : (es.map (·.1)).Nodup) (h : ∀ e ∈ es, Reads d (write e.2) (f e.2)) :
    Reads (ordered d) (.object (es.map fun e => (e.1, write e.2)))
      (es.map fun e => (e.1, f e.2)) := by
  refine ⟨.object ?_ fun j hj => ?_, fun origin => ?_⟩
  · rw [List.map_map]
    exact hkeys
  · obtain ⟨e, he, rfl⟩ := List.mem_map.1 hj
    exact (h e he).distinct
  · have hentries : entries d origin (readingEntries (es.map fun e => (e.1, write e.2))) =
        pure (es.map fun e => (e.1, f e.2)) := by
      clear hkeys
      induction es with
      | nil => rfl
      | cons e es ih =>
        rw [List.map_cons, readingEntries, entries, (h e List.mem_cons_self).read,
          ih fun e he => h e (List.mem_cons_of_mem _ he)]
        rfl
    rw [reading, ordered, hentries]
    rfl

theorem nodup_keys (m : SortedMap α) : (m.entries.map (·.1)).Nodup :=
  List.pairwise_map.2 (m.ascending.imp fun hlt => String.ne_of_lt hlt)

/-- A map is the map of its entries. -/
theorem ofList_entries (m : SortedMap α) : SortedMap.ofList m.entries = m := by
  have h := SortedMap.get?_union ∅ m
  simp only [SortedMap.get?_emptyCollection, Option.or_none] at h
  exact SortedMap.ext_get? h

theorem reads_sortedMap_map {d : Decoder β} {write : α → Json} {f : α → β} {m : SortedMap α}
    (h : ∀ e ∈ m.entries, Reads d (write e.2) (f e.2)) :
    Reads (sortedMap d) (ofMap write m) (m.map f) := by
  have hordered := reads_ordered (nodup_keys m) h
  refine ⟨hordered.distinct, fun origin => ?_⟩
  rw [sortedMap, ofMap, hordered.read, Decoded.pure_bind, ← ofList_entries (m.map f)]
  rfl

theorem reads_sortedMap {d : Decoder α} {write : α → Json} {m : SortedMap α}
    (h : ∀ e ∈ m.entries, Reads d (write e.2) e.2) : Reads (sortedMap d) (ofMap write m) m := by
  have hmap := reads_sortedMap_map (f := id) h
  rwa [show m.map id = m from SortedMap.ext (List.map_id' m.entries)] at hmap

theorem reads_textMap (m : SortedMap String) : Reads (sortedMap text) (ofTextMap m) m :=
  reads_sortedMap fun e _ => reads_text e.2

theorem reads_jsonEntries {es : List (String × Json)} (h : Distinct (.object es)) :
    Reads jsonEntries (.object es) es := by
  obtain ⟨hkeys, hvalues⟩ := distinct_object_iff.1 h
  refine ⟨h, fun origin => ?_⟩
  have hordered := @reads_ordered _ _ json id id es hkeys fun e he => reads_json (hvalues e he)
  rw [show es.map (fun e => (e.1, id e.2)) = es from List.map_id' es] at hordered
  rw [jsonEntries, hordered.read, Decoded.pure_bind, foldl_put_of_nodup (by simpa using hkeys),
    List.nil_append]

/-! ## Records -/

theorem optional_ne_required {key : String} {d : Decoder α} {put : σ → α → σ} :
    (optional key d put).presence ≠ .required := by simp [optional, slot]

/-- Entries written for slots, in the order of the slots and some of them left out. Read in turn,
they lead from one state of the record to another. -/
inductive Fills : List (Slot σ) → List (String × Json) → σ → σ → Prop
  | done {s : σ} : Fills [] [] s s
  | leftOut {slot : Slot σ} {slots : List (Slot σ)} {es : List (String × Json)} {s s' : σ}
      (hpresence : slot.presence ≠ .required) (h : Fills slots es s s') :
      Fills (slot :: slots) es s s'
  | written {slot : Slot σ} {slots : List (Slot σ)} {es : List (String × Json)} {j : Json}
      {s s' s'' : σ} (hdistinct : j.Distinct)
      (hread : ∀ origin, slot.read origin j.reading s = pure s') (h : Fills slots es s' s'') :
      Fills (slot :: slots) ((slot.key, j) :: es) s s''

section Fills

variable {slots : List (Slot σ)} {es : List (String × Json)} {s s' : σ} {key : String}
  {presence : Presence} {d : Decoder α} {put : σ → α → σ} {write : α → Json}

/-- A slot that is always written. -/
theorem Fills.slot {j : Json} {a : α} (hread : Reads d j a) (h : Fills slots es (put s a) s') :
    Fills (slot key presence d put :: slots) ((key, j) :: es) s s' := by
  refine .written hread.distinct (fun origin => ?_) h
  simp only [Decoder.slot, hread.read, Decoded.pure_bind]

theorem Fills.sublist (h : Fills slots es s s') : (es.map (·.1)).Sublist (slots.map (·.key)) := by
  induction h with
  | done => exact .slnil
  | leftOut _ _ ih => exact .cons _ ih
  | written _ _ _ ih => exact .cons_cons _ ih

theorem Fills.distinct (h : Fills slots es s s') : ∀ e ∈ es, e.2.Distinct := by
  induction h with
  | done => exact List.forall_mem_nil _
  | leftOut _ _ ih => exact ih
  | written hdistinct _ _ ih => exact List.forall_mem_cons.2 ⟨hdistinct, ih⟩

/-- Reading the entries of an object, slots that come before and keys that were met before do not
matter. -/
theorem Fills.keyed {all : List (Slot σ)} (hall : (all.map (·.key)).Nodup) (origin : Origin)
    (h : Fills slots es s s') (hslots : ∀ slot ∈ slots, slot ∈ all) (seen : List String)
    (hseen : ∀ slot ∈ slots, slot.key ∉ seen) (hnodup : (slots.map (·.key)).Nodup) :
    ∃ seen', keyed all origin seen s (readingEntries es) = pure (seen', s') ∧
      (∀ key ∈ seen, key ∈ seen') ∧
      ∀ slot ∈ slots, slot.presence = .required → slot.key ∈ seen' := by
  induction h generalizing seen with
  | done => exact ⟨seen, rfl, fun _ h => h, List.forall_mem_nil _⟩
  | @leftOut slot slots es s s' hpresence _ ih =>
    rw [List.map_cons, List.nodup_cons] at hnodup
    obtain ⟨seen', hkeyed, hkept, hrequired⟩ := ih
      (fun t ht => hslots t (List.mem_cons_of_mem _ ht)) seen
      (fun t ht => hseen t (List.mem_cons_of_mem _ ht)) hnodup.2
    refine ⟨seen', hkeyed, hkept, fun t ht hp => ?_⟩
    rcases List.mem_cons.1 ht with rfl | ht
    · exact absurd hp hpresence
    · exact hrequired t ht hp
  | @written slot slots es j s s₁ s' _ hread _ ih =>
    rw [List.map_cons, List.nodup_cons] at hnodup
    have hfind : all.find? (·.key = slot.key) = some slot :=
      find?_key_of_mem hall (hslots slot List.mem_cons_self)
    obtain ⟨seen', hkeyed, hkept, hrequired⟩ := ih
      (fun t ht => hslots t (List.mem_cons_of_mem _ ht)) (slot.key :: seen) (fun t ht => by
        rw [List.mem_cons, not_or]
        exact ⟨fun heq => hnodup.1 (heq ▸ List.mem_map_of_mem ht),
          hseen t (List.mem_cons_of_mem _ ht)⟩) hnodup.2
    refine ⟨seen', ?_, fun k hk => hkept k (List.mem_cons_of_mem _ hk), fun t ht hp => ?_⟩
    · have hnew : seen.contains slot.key = false := by simpa using hseen slot List.mem_cons_self
      rw [readingEntries, Decoder.keyed, hfind]
      simp only [hnew, hread, hkeyed, Decoded.pure_bind]
      rfl
    · rcases List.mem_cons.1 ht with rfl | ht
      · exact hkept _ List.mem_cons_self
      · exact hrequired t ht hp

theorem reads_record {blank a : σ} (hkeys : (slots.map (·.key)).Nodup)
    (h : Fills slots es blank a) : Reads (record slots blank) (.object es) a := by
  refine ⟨.object (hkeys.sublist h.sublist) h.distinct, fun origin => ?_⟩
  obtain ⟨seen, hkeyed, -, hrequired⟩ :=
    h.keyed hkeys origin (fun _ h => h) [] (fun _ _ => List.not_mem_nil) hkeys
  rw [reading, record]
  have hcomplete : (slots.all fun slot =>
      decide (slot.presence ≠ .required) || seen.contains slot.key) = true := by
    refine List.all_eq_true.2 fun slot hslot => ?_
    by_cases hp : slot.presence = .required
    · simp [hrequired slot hslot hp]
    · simp [hp]
  simp only [hkeyed, Decoded.pure_bind, hcomplete]
  rfl

end Fills

/-! ## Lenient slots and choices of shape -/

theorem reads_lenient {d : Decoder α} {j : Json} {a default : α} (h : Reads d j a)
    (hnull : j ≠ .null) : Reads (lenient d default) j a := by
  refine ⟨h.distinct, fun origin => ?_⟩
  have hread := h.fromValue
  rw [lenient, content_reading]
  simp only [resolve_of_distinct h.distinct]
  cases j with
  | null => exact absurd rfl hnull
  | bool | number | text | array | object =>
    simp only [hread]
    rfl

theorem reads_lenient_list {d : Decoder α} {write : α → Json} {as default : List α}
    (h : ∀ a ∈ as, Reads d (write a) a) : Reads (lenient (list d) default) (ofList write as) as :=
  reads_lenient (reads_list h) (array_ne_null _)

theorem reads_lenient_sortedMap {d : Decoder α} {write : α → Json} {m default : SortedMap α}
    (h : ∀ e ∈ m.entries, Reads d (write e.2) e.2) :
    Reads (lenient (sortedMap d) default) (ofMap write m) m :=
  reads_lenient (reads_sortedMap h) (object_ne_null _)

theorem reads_lenient_null (d : Decoder α) (default : α) :
    Reads (lenient d default) .null default := ⟨.null, fun _ => rfl⟩

theorem reads_lenient_option {d : Decoder α} {write : α → Json} {o : Option α}
    (h : ∀ a ∈ o, Reads d (write a) a ∧ write a ≠ .null) :
    Reads (lenient (option d) none) (ofOption write o) o := by
  cases o with
  | none => exact reads_lenient_null _ _
  | some a => exact reads_lenient (reads_option h) (h a rfl).2

theorem reads_lenient_text? (s : Option String) :
    Reads (lenient (option text) none) (ofText? s) s :=
  reads_lenient_option fun s _ => ⟨reads_text s, text_ne_null s⟩

theorem reads_scalarText (s : Option String) : Reads scalarText (ofText? s) s := by
  cases s with
  | none => exact ⟨.null, fun _ => rfl⟩
  | some s => exact ⟨.text s, fun _ => rfl⟩

section FirstOf

variable {shape : Json → Option α} {shapes : List (Json → Option α)} {j : Json} {a : α}

theorem reads_firstOf_head (hj : j.Distinct) (h : shape j = some a) :
    Reads (firstOf (shape :: shapes)) j a := by
  refine ⟨hj, fun origin => ?_⟩
  rw [firstOf, content_reading]
  simp only [List.findSome?_cons, h]

theorem reads_firstOf_tail (hshape : shape j = none) (h : Reads (firstOf shapes) j a) :
    Reads (firstOf (shape :: shapes)) j a := by
  refine ⟨h.distinct, fun origin => ?_⟩
  rw [← h.read origin, firstOf, firstOf, content_reading]
  simp only [List.findSome?_cons, hshape]

end FirstOf

/-! ## What decoders yield -/

/-- All that a decoder reads, from whatever it meets, has a property. -/
def Yields (d : Decoder α) (P : α → Prop) : Prop :=
  ∀ origin r a, (d origin r).outcome = .ok a → P a

theorem outcome_bind_eq_ok {d : Decoded α} {f : α → Decoded β} {b : β} :
    (d >>= f).outcome = .ok b ↔ ∃ a, d.outcome = .ok a ∧ (f a).outcome = .ok b := by
  obtain ⟨outcome, notices⟩ := d
  cases outcome <;> simp [bind, Decoded.andThen]

theorem yields_json : Yields json Distinct := by
  intro origin r j h
  unfold json Decoded.lift at h
  cases hcontent : r.content with
  | error f => rw [hcontent] at h; cases h
  | ok content =>
    rw [hcontent] at h
    cases h
    exact distinct_resolve content

theorem yields_items {d : Decoder α} {P : α → Prop} (h : Yields d P) (origin : Origin)
    (rs : List Reading) (as : List α) (has : (items d origin rs).outcome = .ok as) :
    ∀ a ∈ as, P a := by
  induction rs generalizing as with
  | nil =>
    cases has
    exact List.forall_mem_nil _
  | cons r rs ih =>
    obtain ⟨a, ha, has⟩ := outcome_bind_eq_ok.1 has
    obtain ⟨rest, hrest, heq⟩ := outcome_bind_eq_ok.1 has
    cases heq
    exact List.forall_mem_cons.2 ⟨h origin r a ha, ih rest hrest⟩

theorem yields_list {d : Decoder α} {P : α → Prop} (h : Yields d P) :
    Yields (list d) fun as => ∀ a ∈ as, P a := by
  intro origin r as has
  unfold list at has
  split at has
  · cases has
  · next rs ending =>
    obtain ⟨found, hfound, has⟩ := outcome_bind_eq_ok.1 has
    obtain ⟨-, -, heq⟩ := outcome_bind_eq_ok.1 has
    cases heq
    exact yields_items h origin rs _ hfound
  · cases has

theorem yields_entries {d : Decoder α} {P : α → Prop} (h : Yields d P) (origin : Origin)
    (rs : List (Except Flaw String × Reading)) (es : List (String × α))
    (hes : (entries d origin rs).outcome = .ok es) : ∀ e ∈ es, P e.2 := by
  induction rs generalizing es with
  | nil =>
    cases hes
    exact List.forall_mem_nil _
  | cons entry rs ih =>
    obtain ⟨key, r⟩ := entry
    cases key with
    | error flaw => cases hes
    | ok key =>
      obtain ⟨a, ha, hes⟩ := outcome_bind_eq_ok.1 hes
      obtain ⟨rest, hrest, heq⟩ := outcome_bind_eq_ok.1 hes
      cases heq
      exact List.forall_mem_cons.2 ⟨h origin r a ha, ih rest hrest⟩

theorem yields_jsonEntries : Yields jsonEntries fun es => Distinct (.object es) := by
  intro origin r es hes
  obtain ⟨found, hfound, heq⟩ := outcome_bind_eq_ok.1 hes
  cases heq
  refine distinct_foldl_put ?_ distinct_empty
  unfold ordered at hfound
  split at hfound
  · cases hfound
  · next rs ending =>
    obtain ⟨entries, hentries, hfound⟩ := outcome_bind_eq_ok.1 hfound
    obtain ⟨-, -, heq⟩ := outcome_bind_eq_ok.1 hfound
    cases heq
    exact yields_entries yields_json origin rs _ hentries
  · cases hfound

theorem yields_lenient {d : Decoder α} {default : α} {P : α → Prop} (h : Yields d P)
    (hdefault : P default) : Yields (lenient d default) P := by
  intro origin r a ha
  unfold lenient at ha
  split at ha
  · cases ha
  · split at ha
    · cases ha
      exact hdefault
    · next j _ =>
      split at ha
      · next hread =>
        cases ha
        exact h .value _ _ (congrArg Decoded.outcome hread)
      · cases ha
        exact hdefault

/-- Reading a slot keeps a property of the record. -/
def Keeps (P : σ → Prop) (slot : Slot σ) : Prop :=
  ∀ origin r s s', P s → (slot.read origin r s).outcome = .ok s' → P s'

theorem keeps_slot {P : σ → Prop} {Q : α → Prop} {key : String} {presence : Presence}
    {d : Decoder α} {put : σ → α → σ} (h : Yields d Q) (hput : ∀ s a, P s → Q a → P (put s a)) :
    Keeps P (slot key presence d put) := by
  intro origin r s s' hs hread
  obtain ⟨a, ha, heq⟩ := outcome_bind_eq_ok.1 hread
  cases heq
  exact hput s a hs (h origin r a ha)

/-- A slot with which the property has nothing to do. -/
theorem keeps_of_put {P : σ → Prop} {key : String} {presence : Presence} {d : Decoder α}
    {put : σ → α → σ} (hput : ∀ s a, P s → P (put s a)) : Keeps P (slot key presence d put) :=
  keeps_slot (Q := fun _ => True) (fun _ _ _ _ => trivial) fun s a hs _ => hput s a hs

section Record

variable {P : σ → Prop} {slots : List (Slot σ)} {blank : σ}

theorem yields_keyed (hslots : ∀ slot ∈ slots, Keeps P slot) (origin : Origin)
    (rs : List (Except Flaw String × Reading)) (seen : List String) (s : σ) (hs : P s)
    (result : List String × σ) (h : (keyed slots origin seen s rs).outcome = .ok result) :
    P result.2 := by
  induction rs generalizing seen s with
  | nil => cases h; exact hs
  | cons entry rs ih =>
    obtain ⟨key, r⟩ := entry
    cases key with
    | error flaw => cases h
    | ok key =>
      rw [keyed] at h
      split at h
      · next slot hfind =>
        split at h
        · cases h
        · obtain ⟨s', hread, h⟩ := outcome_bind_eq_ok.1 h
          exact ih (key :: seen) s'
            (hslots slot (List.mem_of_find?_eq_some hfind) origin r s s' hs hread) h
      · obtain ⟨-, -, h⟩ := outcome_bind_eq_ok.1 h
        exact ih seen s hs h

theorem yields_positional (origin : Origin) (ending : Option Fault)
    (hslots : ∀ slot ∈ slots, Keeps P slot) (rs : List Reading) (s : σ) (hs : P s) (s' : σ)
    (h : (positional origin ending slots rs s).outcome = .ok s') : P s' := by
  induction slots generalizing rs s with
  | nil =>
    cases rs with
    | nil =>
      obtain ⟨-, -, heq⟩ := outcome_bind_eq_ok.1 h
      cases heq
      exact hs
    | cons r rs => cases h
  | cons slot slots ih =>
    have hrest := ih fun t ht => hslots t (List.mem_cons_of_mem _ ht)
    cases rs with
    | nil =>
      obtain ⟨-, -, h⟩ := outcome_bind_eq_ok.1 h
      split at h
      · exact hrest [] s hs h
      · cases h
    | cons r rs =>
      obtain ⟨s₁, hread, h⟩ := outcome_bind_eq_ok.1 h
      exact hrest rs s₁ (hslots slot List.mem_cons_self origin r s s₁ hs hread) h

theorem yields_record (hblank : P blank) (hslots : ∀ slot ∈ slots, Keeps P slot) :
    Yields (record slots blank) P := by
  intro origin r s h
  unfold record at h
  split at h
  · cases h
  · next rs ending =>
    obtain ⟨⟨seen, s'⟩, hkeyed, h⟩ := outcome_bind_eq_ok.1 h
    obtain ⟨-, -, h⟩ := outcome_bind_eq_ok.1 h
    split at h
    · cases h
      exact yields_keyed hslots origin rs [] blank hblank _ hkeyed
    · cases h
  · cases h
  · next rs ending => exact yields_positional origin ending hslots rs blank hblank s h
  · cases h

end Record

end Questionnaire.Json.Decoder
