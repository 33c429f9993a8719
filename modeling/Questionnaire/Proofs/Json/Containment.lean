import Questionnaire.Package.Encode
import Questionnaire.Proofs.Json.Places
import Questionnaire.Proofs.Json.Reads

/-
  Lenient slots keep faults to themselves.

  A `LenientSlot` says where a slot stands in the JSON of a thing and which `Part` of the thing it
  holds. It is `Contained` when any value may be put in its place: the thing is read with what the
  slot holds then, and is the same otherwise. A lenient slot is contained in itself
  (`contained_here`). That carries over from a part to the whole, with one lemma for each way a part
  is read: `Contained.list`, `.sortedMap`, `.option`, `.record`, and `.lenient` for what stands
  inside another lenient slot. The last needs that the outer slot, when it is given up, has no such
  part or that it is never given up as long as the inner one is there.
-/

namespace Questionnaire

/-! ## Parts -/

/-- A part of a thing, which may be missing from it. -/
structure Part (σ α : Type) where
  get? : σ → Option α
  modify : (α → α) → σ → σ
  get?_modify : ∀ f s, get? (modify f s) = (get? s).map f
  modify_fixed : ∀ f s, (∀ a ∈ get? s, f a = a) → modify f s = s

/-- A part that is always there. -/
structure Lens (σ α : Type) where
  get : σ → α
  put : σ → α → σ
  get_put : ∀ s a, get (put s a) = a := by intros; rfl
  put_get : ∀ s, put s (get s) = s := by intros; rfl
  put_put : ∀ s a b, put (put s a) b = put s b := by intros; rfl

namespace Part

variable {σ α β : Type}

/-- The thing itself. -/
def whole : Part σ σ where
  get? := some
  modify f := f
  get?_modify _ _ := rfl
  modify_fixed _ s h := h s rfl

/-- A part of a part. -/
def comp (outer : Part σ α) (inner : Part α β) : Part σ β where
  get? s := (outer.get? s).bind inner.get?
  modify f := outer.modify (inner.modify f)
  get?_modify f s := by
    rw [outer.get?_modify]
    cases outer.get? s with
    | none => rfl
    | some a => exact inner.get?_modify f a
  modify_fixed f s h :=
    outer.modify_fixed _ s fun a ha => inner.modify_fixed f a fun b hb =>
      h b (Option.mem_bind_iff.2 ⟨a, ha, hb⟩)

/-- An item of a list. -/
def item (i : Nat) : Part (List α) α where
  get? as := as[i]?
  modify f as := as.modify i f
  get?_modify f as := List.getElem?_modify_eq f i as
  modify_fixed f as h := by
    refine List.ext_getElem? fun n => ?_
    rw [List.getElem?_modify]
    by_cases hn : i = n
    · subst hn
      cases ha : as[i]? with
      | none => rfl
      | some a => simp [h a ha]
    · simp [hn]

/-- A value of a map. -/
def entry (key : String) : Part (SortedMap α) α where
  get? m := m.get? key
  modify f m := m.filterMap fun k a => some (if k = key then f a else a)
  get?_modify f m := by
    rw [SortedMap.get?_filterMap]
    cases m.get? key <;> simp
  modify_fixed f m h := by
    refine SortedMap.ext_get? fun k => ?_
    rw [SortedMap.get?_filterMap]
    cases ha : m.get? k with
    | none => rfl
    | some a =>
      by_cases hk : k = key
      · subst hk
        simp [h a ha]
      · simp [hk]

/-- The value of an optional thing. -/
def content : Part (Option α) α where
  get? o := o
  modify f o := o.map f
  get?_modify _ _ := rfl
  modify_fixed f o h := by
    cases o with
    | none => rfl
    | some a => exact congrArg some (h a rfl)

end Part

/-- A field as a part. -/
def Lens.part {σ α : Type} (lens : Lens σ α) : Part σ α where
  get? s := some (lens.get s)
  modify f s := lens.put s (f (lens.get s))
  get?_modify f s := congrArg some (lens.get_put s _)
  modify_fixed f s h := by rw [h (lens.get s) rfl, lens.put_get]

/-- The thing itself as its only field. -/
def Lens.whole {σ : Type} : Lens σ σ where
  get s := s
  put _ a := a

namespace Json.Decoder

variable {α β σ : Type}

/-! ## Lenient slots -/

/-- What a lenient slot holds that is given as `j`. -/
def held (d : Decoder α) (default : α) (j : Json) : α :=
  match resolve j with
  | .null => default
  | j => (d.value? j).getD default

theorem outcome_lenient (d : Decoder α) (default : α) (j : Json) :
    ((lenient d default).fromValue j).outcome = .ok (held d default j) := by
  rw [Decoder.fromValue, lenient, content_reading, held]
  cases hj : resolve j with
  | null =>
    simp only [hj]
    rfl
  | bool | number | text | array | object =>
    simp only [hj, value?]
    obtain ⟨outcome, notices⟩ := d.fromValue _
    cases outcome <;> rfl

theorem outcome_scalarText (j : Json) :
    (scalarText.fromValue j).outcome = .ok (held scalarText none j) := by
  have hresolved : scalarText.fromValue j = scalarText.fromValue (resolve j) := by
    rw [Decoder.fromValue, Decoder.fromValue, scalarText, scalarText, content_reading,
      content_reading]
    simp only [resolve_resolve]
  rw [held, hresolved]
  cases hj : resolve j with
  | null | bool | number | text => rfl
  | array items =>
    have hfixed : resolve (.array items) = .array items := by rw [← hj, resolve_resolve]
    simp only [value?, Decoder.fromValue, scalarText, content_reading, hfixed]
    rfl
  | object es =>
    have hfixed : resolve (.object es) = .object es := by rw [← hj, resolve_resolve]
    simp only [value?, Decoder.fromValue, scalarText, content_reading, hfixed]
    rfl

theorem held_of_ne_null (d : Decoder α) (default : α) {j : Json} (hj : resolve j ≠ .null) :
    held d default j = (d.value? (resolve j)).getD default := by
  rw [held]
  cases hr : resolve j with
  | null => exact absurd hr hj
  | bool | number | text | array | object => rfl

theorem held_resolve (d : Decoder α) (default : α) (j : Json) :
    held d default (resolve j) = held d default j := by
  rw [held, held, resolve_resolve]

/-- A slot holds what is decoded from its value. It holds its default only where it is given as null
or nothing is decoded. -/
theorem held_eq_or (d : Decoder α) (default : α) (j : Json) :
    d.value? (resolve j) = some (held d default j) ∨
      (resolve j = .null ∨ d.value? (resolve j) = none) ∧ held d default j = default := by
  rw [held]
  cases resolve j with
  | null => exact .inr ⟨.inl rfl, rfl⟩
  | bool | number | text | array | object =>
    simp only
    cases d.value? _ with
    | none => exact .inr ⟨.inr rfl, rfl⟩
    | some a => exact .inl rfl

/-- A lenient slot somewhere in a thing: the place of its value in the JSON that the thing is read
from and written as, the part of the thing that it holds, and how that is read and written. -/
structure LenientSlot (σ : Type) where
  Content : Type
  place : List Selector
  part : Part σ Content
  decoder : Decoder Content
  default : Content
  write : Content → Json

namespace LenientSlot

/-- What the slot holds, unless a slot around it was given up. -/
def get? (slot : LenientSlot σ) (s : σ) : Option slot.Content := slot.part.get? s

/-- The thing with something else in the slot. -/
def put (slot : LenientSlot σ) (a : slot.Content) (s : σ) : σ := slot.part.modify (fun _ => a) s

/-- What the slot holds once a value is given for it. -/
def read (slot : LenientSlot σ) (j : Json) : slot.Content := held slot.decoder slot.default j

/-- A slot that is the whole thing. -/
def here (d : Decoder α) (default : α) (write : α → Json) : LenientSlot α :=
  ⟨α, [], .whole, d, default, write⟩

/-- A slot of a part. -/
def within (slot : LenientSlot α) (place : List Selector) (part : Part σ α) : LenientSlot σ :=
  ⟨slot.Content, place ++ slot.place, part.comp slot.part, slot.decoder, slot.default, slot.write⟩

/-- A slot of a field of a record. -/
def field (slot : LenientSlot α) (key : String) (lens : Lens σ α) : LenientSlot σ :=
  slot.within [.key key] lens.part

/-- Whatever value is put in the place of the slot, the thing is read with what the slot holds then
and is the same otherwise; so it is written. -/
structure Contained (slot : LenientSlot σ) (d : Decoder σ) (write : σ → Json) : Prop where
  read_replace : ∀ j new, j.Distinct → (j.at? slot.place).isSome →
    (d.fromValue (j.replace slot.place new)).outcome =
      (d.fromValue j).outcome.map (slot.put (slot.read new))
  write_put : ∀ a s, write (slot.put a s) = (write s).replace slot.place (slot.write a)

end LenientSlot

open LenientSlot

theorem contained_here (d : Decoder α) (default : α) (write : α → Json) :
    (here d default write).Contained (lenient d default) write where
  read_replace j new _ _ := by
    rw [outcome_lenient, outcome_lenient]
    rfl
  write_put _ _ := rfl

theorem contained_scalarText : (here scalarText none ofText?).Contained scalarText ofText? where
  read_replace j new _ _ := by
    rw [outcome_scalarText, outcome_scalarText]
    rfl
  write_put _ _ := rfl

/-! ## Lists, maps and optional values -/

theorem outcome_bind (x : Decoded α) (f : α → Decoded β) :
    (x >>= f).outcome = x.outcome.bind fun a => (f a).outcome := by
  obtain ⟨outcome, notices⟩ := x
  cases outcome <;> rfl

theorem outcome_items_cons (d : Decoder α) (origin : Origin) (r : Reading) (rs : List Reading) :
    (items d origin (r :: rs)).outcome =
      (d origin r).outcome.bind fun a => (items d origin rs).outcome.map (a :: ·) := by
  simp only [items, outcome_bind]
  rfl

theorem outcome_items_modify {d : Decoder α} {f : Json → Json} {change : α → α} (js : List Json)
    (i : Nat)
    (h : ∀ j ∈ js[i]?, (d.fromValue (f j)).outcome = (d.fromValue j).outcome.map change) :
    (items d .value (readingItems (js.modify i f))).outcome =
      (items d .value (readingItems js)).outcome.map fun as => as.modify i change := by
  induction js generalizing i with
  | nil =>
    rw [List.modify_nil, readingItems, items]
    simp [Except.map]
  | cons j js ih =>
    cases i with
    | zero =>
      have hj := h j rfl
      rw [Decoder.fromValue, Decoder.fromValue] at hj
      rw [List.modify_zero_cons, readingItems, readingItems, outcome_items_cons, outcome_items_cons,
        hj]
      cases (d .value j.reading).outcome with
      | error => rfl
      | ok a => cases (items d .value (readingItems js)).outcome <;> rfl
    | succ i =>
      rw [List.modify_succ_cons, readingItems, readingItems, outcome_items_cons, outcome_items_cons,
        ih i h]
      cases (d .value j.reading).outcome with
      | error => rfl
      | ok a => cases (items d .value (readingItems js)).outcome <;> rfl

theorem outcome_list (d : Decoder α) (js : List Json) :
    ((list d).fromValue (.array js)).outcome = (items d .value (readingItems js)).outcome := by
  rw [Decoder.fromValue, reading, list, outcome_bind]
  cases (items d .value (readingItems js)).outcome <;> rfl

/-- A slot of an item of a list. -/
theorem LenientSlot.Contained.list {slot : LenientSlot α} {d : Decoder α} {write : α → Json}
    (h : slot.Contained d write) (i : Nat) :
    (slot.within [.index i] (.item i)).Contained (list d) (ofList write) where
  read_replace j new hj hslot := by
    cases hj with
    | @array js hjs =>
      refine (outcome_list d _).trans (.trans ?_ (congrArg _ (outcome_list d js).symm))
      refine outcome_items_modify js i fun item hitem => ?_
      have hat : ((Json.array js).at? (.index i :: slot.place)).isSome := hslot
      rw [at?, hitem] at hat
      exact h.read_replace item new (hjs item (List.mem_of_getElem? hitem)) hat
    | null | bool | number | text | object => cases hslot
  write_put a as :=
    congrArg Json.array (map_modify i fun b _ => h.write_put a b)

theorem outcome_entries_cons (d : Decoder α) (origin : Origin) (key : String) (r : Reading)
    (rs : List (Except Flaw String × Reading)) :
    (entries d origin ((.ok key, r) :: rs)).outcome =
      (d origin r).outcome.bind fun a => (entries d origin rs).outcome.map ((key, a) :: ·) := by
  simp only [entries, outcome_bind]
  rfl

theorem outcome_entries_modify {d : Decoder α} {f : Json → Json} {change : α → α} {key : String}
    (es : List (String × Json))
    (h : ∀ e ∈ es, e.1 = key →
      (d.fromValue (f e.2)).outcome = (d.fromValue e.2).outcome.map change) :
    (entries d .value (readingEntries (modifyEntry key f es))).outcome =
      (entries d .value (readingEntries es)).outcome.map (modifyEntry key change) := by
  induction es with
  | nil => rfl
  | cons e es ih =>
    have hrest := ih fun e he => h e (List.mem_cons_of_mem _ he)
    rw [modifyEntry_cons]
    split
    · next hkey =>
      have he := h e List.mem_cons_self hkey
      rw [Decoder.fromValue, Decoder.fromValue] at he
      rw [readingEntries, readingEntries, outcome_entries_cons, outcome_entries_cons, he, hrest]
      cases (d .value e.2.reading).outcome with
      | error => rfl
      | ok a =>
        cases (entries d .value (readingEntries es)).outcome with
        | error => rfl
        | ok as => simp [Except.map, Except.bind, modifyEntry_cons, hkey]
    · next hkey =>
      rw [readingEntries, readingEntries, outcome_entries_cons, outcome_entries_cons, hrest]
      cases (d .value e.2.reading).outcome with
      | error => rfl
      | ok a =>
        cases (entries d .value (readingEntries es)).outcome with
        | error => rfl
        | ok as => simp [Except.map, Except.bind, modifyEntry_cons, hkey]

theorem outcome_sortedMap (d : Decoder α) (es : List (String × Json)) :
    ((sortedMap d).fromValue (.object es)).outcome =
      (entries d .value (readingEntries es)).outcome.map SortedMap.ofList := by
  rw [Decoder.fromValue, reading, sortedMap, outcome_bind, ordered, outcome_bind]
  cases (entries d .value (readingEntries es)).outcome <;> rfl

theorem entries_modify (key : String) (f : α → α) (m : SortedMap α) :
    ((Part.entry key).modify f m).entries = modifyEntry key f m.entries := by
  show m.entries.filterMap _ = m.entries.map _
  rw [← List.filterMap_eq_map]
  refine List.filterMap_congr fun e _ => ?_
  rw [Option.map_some, Function.comp_apply]
  split <;> rfl

theorem ofList_modifyEntry (key : String) (f : α → α) (es : List (String × α)) :
    SortedMap.ofList (modifyEntry key f es) =
      (Part.entry key).modify f (SortedMap.ofList es) := by
  refine SortedMap.ext_get? fun k => ?_
  have hreverse : (modifyEntry key f es).reverse = modifyEntry key f es.reverse :=
    List.map_reverse.symm
  rw [Part.entry, SortedMap.get?_filterMap, SortedMap.get?_ofList, SortedMap.get?_ofList, hreverse]
  by_cases hk : k = key
  · subst hk
    rw [find?_modifyEntry_self]
    cases es.reverse.find? (·.1 = k) <;> simp
  · rw [find?_modifyEntry_ne hk]
    cases es.reverse.find? (·.1 = k) <;> simp [hk]

/-- A slot of a value of a map. -/
theorem LenientSlot.Contained.sortedMap {slot : LenientSlot α} {d : Decoder α} {write : α → Json}
    (h : slot.Contained d write) (key : String) :
    (slot.within [.key key] (.entry key)).Contained (sortedMap d) (ofMap write) where
  read_replace j new hj hslot := by
    cases hj with
    | @object es hkeys hvalues =>
      have hat : ((Json.object es).at? (.key key :: slot.place)).isSome := hslot
      refine (outcome_sortedMap d _).trans (.trans ?_ (congrArg _ (outcome_sortedMap d es).symm))
      rw [outcome_entries_modify es fun e he hkey => ?_]
      · cases (entries d .value (readingEntries es)).outcome with
        | error => rfl
        | ok as => exact congrArg Except.ok (ofList_modifyEntry key _ as)
      · rw [at?, ← hkey, find?_key_of_mem hkeys he] at hat
        exact h.read_replace e.2 new (hvalues e he) hat
    | null | bool | number | text | array => cases hslot
  write_put a m := by
    show ofMap write ((Part.entry key).modify (slot.put a) m) = Json.object (modifyEntry key _ _)
    rw [ofMap, entries_modify,
      map_modifyEntry (h := fun j => j.replace slot.place (slot.write a)) fun e _ =>
        h.write_put a e.2]
    rfl

theorem replace_ne_null {j : Json} {place : List Selector} (hplace : place ≠ [])
    (hj : j ≠ .null) (new : Json) : j.replace place new ≠ .null := by
  cases place with
  | nil => exact absurd rfl hplace
  | cons s place => cases s <;> cases j <;> simp_all [replace]

theorem ne_null_of_at? {j : Json} {place : List Selector} (hplace : place ≠ [])
    (h : (j.at? place).isSome) : j ≠ .null := by
  rintro rfl
  cases place with
  | nil => exact hplace rfl
  | cons s place => cases s <;> cases h

theorem outcome_option (d : Decoder α) {j : Json} (hj : j ≠ .null) :
    ((option d).fromValue j).outcome = (d.fromValue j).outcome.map some := by
  rw [Decoder.fromValue, option]
  · rw [Decoder.fromValue]
    cases h : d .value j.reading with
    | mk outcome notices => cases outcome <;> rfl
  · exact fun heq => hj (reading_eq_null.1 heq)

/-- A slot of a value that may be missing. -/
theorem LenientSlot.Contained.option {slot : LenientSlot α} {d : Decoder α} {write : α → Json}
    (h : slot.Contained d write) (hplace : slot.place ≠ []) :
    (slot.within [] .content).Contained (option d) (ofOption write) where
  read_replace j new hj hslot := by
    have hnull := ne_null_of_at? hplace hslot
    refine (outcome_option d (replace_ne_null hplace hnull new)).trans ?_
    rw [outcome_option d hnull, h.read_replace j new hj hslot]
    cases (d.fromValue j).outcome <;> rfl
  write_put a o := by
    cases o with
    | none =>
      show Json.null = Json.null.replace slot.place _
      cases hp : slot.place with
      | nil => exact absurd hp hplace
      | cons s place => cases s <;> rfl
    | some b => exact h.write_put a b

/-! ## Slots inside lenient slots -/

/-- A slot of the content of a lenient slot. When the outer slot is given up, its default must have
no such slot, or giving it up must be impossible as long as it has one. -/
theorem LenientSlot.Contained.lenient {slot : LenientSlot α} {d : Decoder α} {default : α}
    {write : α → Json} (h : slot.Contained d write) (hplace : slot.place ≠ [])
    (hdefault : slot.get? default = none ∨
      ∀ j, j.Distinct → (j.at? slot.place).isSome → ∃ a, (d.fromValue j).outcome = .ok a) :
    slot.Contained (lenient d default) write where
  read_replace j new hj hslot := by
    have hnull := ne_null_of_at? hplace hslot
    have hread := h.read_replace j (resolve new) hj hslot
    rw [show slot.read (resolve new) = slot.read new from held_resolve _ _ _] at hread
    have hresolve : resolve (j.replace slot.place new) = j.replace slot.place (resolve new) :=
      resolve_replace hj slot.place new
    rw [outcome_lenient, outcome_lenient]
    refine congrArg Except.ok ?_
    rw [held_of_ne_null d default (by rw [hresolve]; exact replace_ne_null hplace hnull _),
      held_of_ne_null d default (by rw [resolve_of_distinct hj]; exact hnull), hresolve,
      resolve_of_distinct hj, value?, value?, hread]
    cases hd : (d.fromValue j).outcome with
    | ok a => rfl
    | error f =>
      rcases hdefault with hnone | hsucceeds
      · refine (slot.part.modify_fixed _ default fun a ha => ?_).symm
        rw [show slot.part.get? default = none from hnone] at ha
        cases ha
      · obtain ⟨a, ha⟩ := hsucceeds j hj hslot
        rw [hd] at ha
        cases ha
  write_put := h.write_put

/-! ## Records -/

/-- Reading a slot of a record commutes with a change of the record. -/
def Commutes (change : σ → σ) (slot : Slot σ) : Prop :=
  ∀ origin r s, (slot.read origin r (change s)).outcome =
    (slot.read origin r s).outcome.map change

theorem commutes_slot {change : σ → σ} {key : String} {presence : Presence} {d : Decoder α}
    {put : σ → α → σ} (h : ∀ s a, put (change s) a = change (put s a)) :
    Commutes change (slot key presence d put) := by
  intro origin r s
  simp only [slot, outcome_bind, h]
  cases (d origin r).outcome <;> rfl

section Record

variable {slots : List (Slot σ)} {blank : σ} {seen : List String} {s : σ}

theorem outcome_keyed_cons (e : String × Json) (es : List (String × Json)) :
    (keyed slots .value seen s (readingEntries (e :: es))).outcome =
      match slots.find? (·.key = e.1) with
      | some slot =>
        if seen.contains e.1 then .error .mismatch
        else (slot.read .value e.2.reading s).outcome.bind fun s =>
          (keyed slots .value (e.1 :: seen) s (readingEntries es)).outcome
      | none => (keyed slots .value seen s (readingEntries es)).outcome := by
  rw [readingEntries, keyed]
  cases slots.find? (·.key = e.1) with
  | none =>
    simp only [skipFault_reading, outcome_bind]
    rfl
  | some slot =>
    simp only
    split
    · rfl
    · exact outcome_bind _ _

theorem outcome_keyed_append (es es' : List (String × Json)) :
    (keyed slots .value seen s (readingEntries (es ++ es'))).outcome =
      (keyed slots .value seen s (readingEntries es)).outcome.bind fun found =>
        (keyed slots .value found.1 found.2 (readingEntries es')).outcome := by
  induction es generalizing seen s with
  | nil => rfl
  | cons e es ih =>
    rw [List.cons_append, outcome_keyed_cons, outcome_keyed_cons]
    cases slots.find? (·.key = e.1) with
    | none => exact ih
    | some slot =>
      simp only [ih]
      split
      · rfl
      · cases (slot.read .value e.2.reading s).outcome <;> rfl

/-- A change of the record that has to do with one key only commutes with the entries of others. -/
theorem outcome_keyed_change {key : String} {change : σ → σ}
    (hchange : ∀ t ∈ slots, t.key ≠ key → Commutes change t) (es : List (String × Json))
    (hes : key ∉ es.map (·.1)) :
    (keyed slots .value seen (change s) (readingEntries es)).outcome =
      (keyed slots .value seen s (readingEntries es)).outcome.map (Prod.map id change) := by
  induction es generalizing seen s with
  | nil => rfl
  | cons e es ih =>
    rw [List.map_cons, List.mem_cons, not_or] at hes
    rw [outcome_keyed_cons, outcome_keyed_cons]
    cases hfind : slots.find? (·.key = e.1) with
    | none => exact ih hes.2
    | some slot =>
      have hfound : slot.key = e.1 := by simpa using List.find?_some hfind
      have hkey : slot.key ≠ key := fun heq => hes.1 (heq.symm.trans hfound)
      simp only [hchange slot (List.mem_of_find?_eq_some hfind) hkey .value e.2.reading s]
      split
      · rfl
      · cases (slot.read .value e.2.reading s).outcome with
        | error => rfl
        | ok s' => exact ih hes.2

theorem outcome_record_object (es : List (String × Json)) :
    ((record slots blank).fromValue (.object es)).outcome =
      (keyed slots .value [] blank (readingEntries es)).outcome.bind fun found =>
        if slots.all fun slot => slot.presence ≠ .required || found.1.contains slot.key
        then .ok found.2 else .error .mismatch := by
  rw [Decoder.fromValue, reading, record, outcome_bind]
  cases (keyed slots .value [] blank (readingEntries es)).outcome with
  | error => rfl
  | ok found =>
    show (Decoded.outcome (if _ then _ else _)) = if _ then _ else _
    split <;> rfl

/-- A field of a record that is read from a slot of its own and written under the key of the slot.
Each claim can be seen from the list of slots and from what is written. -/
structure FieldOf (slots : List (Slot σ)) (write : σ → Json) (key : String) (d : Decoder α)
    (lens : Lens σ α) (writeField : α → Json) : Prop where
  keys : (slots.map (·.key)).Nodup := by decide
  slot : optional key d lens.put ∈ slots := by
    repeat first
      | exact List.mem_cons_self
      | apply List.mem_cons_of_mem
  others : ∀ change, ∀ t ∈ slots, t.key ≠ key → Commutes (lens.part.modify change) t := by
    intro change
    simp only [List.forall_mem_cons]
    and_intros
    all_goals first
      | exact List.forall_mem_nil _
      | exact fun _ => commutes_slot fun _ _ => rfl
      | exact fun h => absurd rfl h
  written : ∀ s a, ∃ es, write s = .object es ∧
      (∀ e ∈ es, e.1 = key → e.2 = writeField (lens.get s)) ∧
      write (lens.put s a) = .object (modifyEntry key (fun _ => writeField a) es) := by
    intro s a
    refine ⟨_, rfl, ?_, ?_⟩
    · simp only [List.forall_mem_cons]
      and_intros
      all_goals first
        | exact List.forall_mem_nil _
        | exact fun _ => trivial
        | exact fun _ => rfl
        | exact fun h => absurd h (by decide)
    · simp only [modifyEntry, List.map_cons, List.map_nil, String.reduceEq, reduceIte]
      rfl

variable {key : String} {d : Decoder α} {lens : Lens σ α} {write : σ → Json}
  {writeField : α → Json}

theorem modify_put (lens : Lens σ α) (change : α → α) (s : σ) (a : α) :
    lens.part.modify change (lens.put s a) = lens.put s (change a) := by
  show lens.put (lens.put s a) (change (lens.get (lens.put s a))) = _
  rw [lens.get_put, lens.put_put]

/-- Reading an entry and all behind it, after the value of the entry was changed. -/
theorem outcome_keyed_replaced (hfield : FieldOf slots write key d lens writeField) {v v' : Json}
    {change : α → α}
    (hv : (d.fromValue v').outcome = (d.fromValue v).outcome.map change)
    (es : List (String × Json)) (hes : key ∉ es.map (·.1)) :
    (keyed slots .value seen s (readingEntries ((key, v') :: es))).outcome =
      (keyed slots .value seen s (readingEntries ((key, v) :: es))).outcome.map
        (Prod.map id (lens.part.modify change)) := by
  have hfind : slots.find? (·.key = key) = some (optional key d lens.put) :=
    find?_key_of_mem hfield.keys hfield.slot
  rw [outcome_keyed_cons, outcome_keyed_cons, hfind]
  simp only
  split
  · rfl
  · show Except.bind (Decoded.outcome (d .value v'.reading >>= _)) _ =
      (Except.bind (Decoded.outcome (d .value v.reading >>= _)) _).map _
    rw [Decoder.fromValue, Decoder.fromValue] at hv
    rw [outcome_bind, outcome_bind, hv]
    cases (d .value v.reading).outcome with
    | error => rfl
    | ok a =>
      rw [show Except.map change (.ok a : Except Fault α) = .ok (change a) from rfl]
      show (keyed slots .value (key :: seen) (lens.put s (change a)) _).outcome = _
      rw [← modify_put, outcome_keyed_change (hfield.others change) es hes]
      rfl

/-- Reading a record, after the value of an entry was changed. -/
theorem outcome_record_replaced (hfield : FieldOf slots write key d lens writeField) {v v' : Json}
    {change : α → α} (hv : (d.fromValue v').outcome = (d.fromValue v).outcome.map change)
    (before after : List (String × Json)) (hafter : key ∉ after.map (·.1)) :
    ((Decoder.record slots blank).fromValue (.object (before ++ (key, v') :: after))).outcome =
      ((Decoder.record slots blank).fromValue (.object (before ++ (key, v) :: after))).outcome.map
        (lens.part.modify change) := by
  rw [outcome_record_object, outcome_record_object, outcome_keyed_append, outcome_keyed_append]
  cases (keyed slots .value [] blank (readingEntries before)).outcome with
  | error => rfl
  | ok found =>
    show Except.bind (keyed slots .value found.1 found.2
        (readingEntries ((key, v') :: after))).outcome _ =
      (Except.bind (keyed slots .value found.1 found.2
        (readingEntries ((key, v) :: after))).outcome _).map _
    rw [outcome_keyed_replaced hfield hv after hafter]
    cases (keyed slots .value found.1 found.2 (readingEntries ((key, v) :: after))).outcome with
    | error => rfl
    | ok result =>
      simp only [Except.bind, Except.map, Prod.map, id]
      split <;> rfl

/-- A slot of a field of a record. -/
theorem LenientSlot.Contained.record {slot : LenientSlot α} (h : slot.Contained d writeField)
    (hfield : FieldOf slots write key d lens writeField) :
    (slot.field key lens).Contained (record slots blank) write where
  read_replace j new hj hslot := by
    cases hj with
    | @object es hes hvalues =>
      obtain ⟨before, v, after, rfl, hbefore, hafter, hin⟩ := exists_entry_of_at? hes hslot
      have hv := h.read_replace v new (hvalues (key, v) (by simp)) hin
      show ((Decoder.record slots blank).fromValue
        ((Json.object (before ++ (key, v) :: after)).replace (.key key :: slot.place) new)).outcome
          = _
      rw [replace_entry hbefore hafter]
      exact outcome_record_replaced hfield hv before after hafter
    | null | bool | number | text | array => cases hslot
  write_put a s := by
    obtain ⟨es, hs, hvalue, hput⟩ := hfield.written s (slot.put a (lens.get s))
    have hentries : modifyEntry key (fun _ => writeField (slot.put a (lens.get s))) es =
        modifyEntry key (fun v => v.replace slot.place (slot.write a)) es := by
      refine List.map_congr_left fun e he => ?_
      split
      · next hkey =>
        rw [hvalue e he hkey]
        exact congrArg (Prod.mk e.1) (h.write_put a (lens.get s))
      · rfl
    exact hput.trans (by rw [hentries, hs]; rfl)

/-- A slot that may be missing and is read from every value. -/
structure NeverFails (slot : Slot σ) : Prop where
  presence : slot.presence ≠ .required
  read : ∀ (j : Json) (s : σ), ∃ s', (slot.read .value j.reading s).outcome = .ok s'

theorem neverFails_lenient {key : String} {d : Decoder α} {default : α} {put : σ → α → σ} :
    NeverFails (optional key (Decoder.lenient d default) put) := by
  refine ⟨optional_ne_required, fun j s => ⟨put s (held d default j), ?_⟩⟩
  have hread := outcome_lenient d default j
  rw [Decoder.fromValue] at hread
  show Decoded.outcome (Decoder.lenient d default .value j.reading >>= _) = _
  rw [outcome_bind, hread]
  rfl

theorem keyed_succeeds (hslots : ∀ slot ∈ slots, NeverFails slot) (es : List (String × Json))
    (hes : (es.map (·.1)).Nodup) (hseen : ∀ key ∈ seen, key ∉ es.map (·.1)) :
    ∃ found, (keyed slots .value seen s (readingEntries es)).outcome = .ok found := by
  induction es generalizing seen s with
  | nil => exact ⟨_, rfl⟩
  | cons e es ih =>
    rw [List.map_cons, List.nodup_cons] at hes
    have hrest : ∀ key ∈ seen, key ∉ es.map (·.1) := fun key hkey hmem =>
      hseen key hkey (List.mem_cons_of_mem _ hmem)
    rw [outcome_keyed_cons]
    cases hfind : slots.find? (·.key = e.1) with
    | none => exact ih hes.2 hrest
    | some slot =>
      obtain ⟨s', hs'⟩ := (hslots slot (List.mem_of_find?_eq_some hfind)).read e.2 s
      have hnew : seen.contains e.1 = false := by
        rw [← Bool.not_eq_true, List.contains_iff_mem]
        exact fun hmem => hseen e.1 hmem List.mem_cons_self
      simp only [hnew, Bool.false_eq_true, if_false, hs']
      exact ih hes.2 (List.forall_mem_cons.2 ⟨hes.1, hrest⟩)

/-- A record all of whose slots are lenient is read from every object. -/
theorem record_succeeds (hslots : ∀ slot ∈ slots, NeverFails slot) {j : Json} (hj : j.Distinct)
    {key : String} {place : List Selector} (hat : (j.at? (.key key :: place)).isSome) :
    ∃ s, ((Decoder.record slots blank).fromValue j).outcome = .ok s := by
  cases hj with
  | @object es hes _ =>
    obtain ⟨found, hfound⟩ := @keyed_succeeds _ slots [] blank hslots es hes (List.forall_mem_nil _)
    refine ⟨found.2, ?_⟩
    rw [outcome_record_object, hfound]
    refine if_pos (List.all_eq_true.2 fun slot hslot => ?_)
    simp [(hslots slot hslot).presence]
  | null | bool | number | text | array => cases hat

end Record

end Json.Decoder
end Questionnaire
