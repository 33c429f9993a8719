import Questionnaire.Proofs.Json.Values

/-
  Places inside a JSON value, and the value with another one put there.

  A place is a list of selectors, each a key of an object or an index of an array. Replacing a value
  changes nothing at places that lie neither inside nor around it (`at?_replace_of_apart`); where a
  place is missing there is nothing to replace. Replacing commutes with resolving repeated keys
  (`resolve_replace`).
-/

namespace Questionnaire.Json

/-- A way from a container to one of its members. -/
inductive Selector
  | key (k : String)
  | index (i : Nat)
deriving DecidableEq, Repr

/-- Entries with `f` applied to what stands under a key. -/
def modifyEntry {α : Type} (key : String) (f : α → α) (es : List (String × α)) :
    List (String × α) :=
  es.map fun e => if e.1 = key then (e.1, f e.2) else e

/-- The value at a place, if there is one. -/
def at? (j : Json) (place : List Selector) : Option Json :=
  match place, j with
  | [], j => some j
  | .key k :: place, .object es => (es.find? (·.1 = k)).bind fun e => e.2.at? place
  | .index i :: place, .array items => items[i]?.bind fun item => item.at? place
  | _ :: _, _ => none

/-- The value with another one in a place; as it is when it has no such place. -/
def replace (j : Json) (place : List Selector) (new : Json) : Json :=
  match place, j with
  | [], _ => new
  | .key k :: place, .object es => .object (modifyEntry k (fun v => v.replace place new) es)
  | .index i :: place, .array items => .array (items.modify i fun item => item.replace place new)
  | _ :: _, j => j

/-! ## Entries -/

section Entries

variable {α : Type} {key k : String} {f : α → α} {es : List (String × α)}

theorem modifyEntry_cons (e : String × α) :
    modifyEntry key f (e :: es) =
      (if e.1 = key then (e.1, f e.2) else e) :: modifyEntry key f es := rfl

theorem modifyEntry_append (es' : List (String × α)) :
    modifyEntry key f (es ++ es') = modifyEntry key f es ++ modifyEntry key f es' :=
  List.map_append

theorem map_fst_modifyEntry : (modifyEntry key f es).map (·.1) = es.map (·.1) := by
  rw [modifyEntry, List.map_map]
  refine List.map_congr_left fun e _ => ?_
  rw [Function.comp_apply]
  split <;> rfl

theorem modifyEntry_of_not_mem (h : key ∉ es.map (·.1)) : modifyEntry key f es = es := by
  refine (List.map_congr_left fun e he => if_neg ?_).trans (List.map_id' es)
  rintro rfl
  exact h (List.mem_map_of_mem he)

theorem find?_modifyEntry_self :
    (modifyEntry key f es).find? (·.1 = key) =
      (es.find? (·.1 = key)).map fun e => (e.1, f e.2) := by
  induction es with
  | nil => rfl
  | cons e es ih =>
    rw [modifyEntry_cons]
    by_cases h : e.1 = key
    · simp [h]
    · simpa [h] using ih

theorem find?_modifyEntry_ne (hk : k ≠ key) :
    (modifyEntry key f es).find? (·.1 = k) = es.find? (·.1 = k) := by
  induction es with
  | nil => rfl
  | cons e es ih =>
    rw [modifyEntry_cons]
    by_cases h : e.1 = key
    · simpa [h, Ne.symm hk] using ih
    · rw [if_neg h, List.find?_cons, List.find?_cons, ih]

/-- A change of one value commutes with a translation of all. -/
theorem map_modifyEntry {β : Type} {g : α → β} {h : β → β}
    (hcomm : ∀ e ∈ es, g (f e.2) = h (g e.2)) :
    (modifyEntry key f es).map (fun e => (e.1, g e.2)) =
      modifyEntry key h (es.map fun e => (e.1, g e.2)) := by
  rw [modifyEntry, modifyEntry, List.map_map, List.map_map]
  refine List.map_congr_left fun e he => ?_
  simp only [Function.comp_apply]
  split
  · rw [hcomm e he]
  · rfl

end Entries

/-- A change of one item commutes with a translation of all. -/
theorem map_modify {α β : Type} {f : α → α} {g : α → β} {h : β → β} {as : List α} (i : Nat)
    (hcomm : ∀ a ∈ as, g (f a) = h (g a)) : (as.modify i f).map g = (as.map g).modify i h := by
  induction as generalizing i with
  | nil => rw [List.modify_nil, List.map_nil, List.modify_nil]
  | cons a as ih =>
    cases i with
    | zero => rw [List.modify_zero_cons, List.map_cons, List.map_cons, List.modify_zero_cons,
        hcomm a List.mem_cons_self]
    | succ i => rw [List.modify_succ_cons, List.map_cons, List.map_cons, List.modify_succ_cons,
        ih i fun b hb => hcomm b (List.mem_cons_of_mem _ hb)]

/-! ## Laws of replacing -/

/-- An object without repeated keys that has something in a place has one entry with the first key
of the place, and the rest of the place in its value. -/
theorem exists_entry_of_at? {es : List (String × Json)} (hkeys : (es.map (·.1)).Nodup)
    {key : String} {place : List Selector}
    (hat : ((Json.object es).at? (.key key :: place)).isSome) :
    ∃ before v after, es = before ++ (key, v) :: after ∧ key ∉ before.map (·.1) ∧
      key ∉ after.map (·.1) ∧ (v.at? place).isSome := by
  rw [at?, Option.isSome_bind] at hat
  obtain ⟨⟨found, v⟩, hfind, hin⟩ := (Option.any_eq_true _ _).1 hat
  obtain ⟨hkey, before, after, rfl, -⟩ := List.find?_eq_some_iff_append.1 hfind
  obtain rfl : found = key := by simpa using hkey
  rw [List.map_append, List.map_cons, List.nodup_append, List.nodup_cons] at hkeys
  exact ⟨before, v, after, rfl, fun hmem => hkeys.2.2 _ hmem _ List.mem_cons_self rfl,
    hkeys.2.1.1, hin⟩

theorem replace_entry {before after : List (String × Json)} {key : String}
    (hbefore : key ∉ before.map (·.1)) (hafter : key ∉ after.map (·.1)) (v : Json)
    (place : List Selector) (new : Json) :
    (Json.object (before ++ (key, v) :: after)).replace (.key key :: place) new =
      .object (before ++ (key, v.replace place new) :: after) := by
  rw [replace, modifyEntry_append, modifyEntry_of_not_mem hbefore, modifyEntry_cons, if_pos rfl,
    modifyEntry_of_not_mem hafter]

theorem at?_replace_self (j : Json) (place : List Selector) (new : Json) :
    (j.replace place new).at? place = (j.at? place).map fun _ => new := by
  induction place generalizing j with
  | nil => rfl
  | cons s place ih =>
    cases s with
    | key k =>
      cases j with
      | object es =>
        simp only [replace, at?, find?_modifyEntry_self]
        cases es.find? (·.1 = k) with
        | none => rfl
        | some e => exact ih e.2
      | null | bool | number | text | array => rfl
    | index i =>
      cases j with
      | array items =>
        simp only [replace, at?, List.getElem?_modify_eq]
        cases items[i]? with
        | none => rfl
        | some item => exact ih item
      | null | bool | number | text | object => rfl

/-- Nothing changes at a place that is neither inside nor around the one that is replaced. -/
theorem at?_replace_of_apart (j : Json) {place other : List Selector} (hin : ¬ place <+: other)
    (haround : ¬ other <+: place) (new : Json) : (j.replace place new).at? other = j.at? other := by
  induction place generalizing j other with
  | nil => exact absurd List.nil_prefix hin
  | cons s place ih =>
    cases other with
    | nil => exact absurd List.nil_prefix haround
    | cons t other =>
      by_cases hst : t = s
      · subst hst
        have hrest (j : Json) : (j.replace place new).at? other = j.at? other :=
          ih j (fun h => hin (List.cons_prefix_cons.2 ⟨rfl, h⟩))
            fun h => haround (List.cons_prefix_cons.2 ⟨rfl, h⟩)
        cases t with
        | key k =>
          cases j with
          | object es =>
            simp only [replace, at?, find?_modifyEntry_self]
            cases es.find? (·.1 = k) with
            | none => rfl
            | some e => exact hrest e.2
          | null | bool | number | text | array => rfl
        | index i =>
          cases j with
          | array items =>
            simp only [replace, at?, List.getElem?_modify_eq]
            cases items[i]? with
            | none => rfl
            | some item => exact hrest item
          | null | bool | number | text | object => rfl
      · cases s <;> cases j <;> cases t <;> try rfl
        · next k es k' =>
          simp only [replace, at?]
          rw [find?_modifyEntry_ne fun heq => hst (congrArg Selector.key heq)]
        · next i items i' =>
          simp only [replace, at?]
          have hi : i ≠ i' := fun heq => hst (congrArg Selector.index heq.symm)
          rw [List.getElem?_modify_ne _ _ hi]

theorem resolve_replace {j : Json} (hj : j.Distinct) (place : List Selector) (new : Json) :
    resolve (j.replace place new) = j.replace place (resolve new) := by
  induction place generalizing j with
  | nil => rfl
  | cons s place ih =>
    have hcomm {v : Json} (hv : v.Distinct) :
        resolve (v.replace place new) = (resolve v).replace place (resolve new) := by
      rw [ih hv, resolve_of_distinct hv]
    cases s with
    | key k =>
      cases hj with
      | @object es hkeys hvalues =>
        have hes := resolve_of_distinct (.object hkeys hvalues)
        rw [resolve_object hkeys, Json.object.injEq] at hes
        rw [replace, resolve_object (by rwa [map_fst_modifyEntry]),
          map_modifyEntry (h := fun v => v.replace place (resolve new)) fun e he =>
            hcomm (hvalues e he), hes, replace]
      | array hitems => exact resolve_of_distinct (.array hitems)
      | null | bool | number | text => rfl
    | index i =>
      cases hj with
      | @array items hitems =>
        have hresolved := resolve_of_distinct (.array hitems)
        rw [resolve, resolveItems_eq, Json.array.injEq] at hresolved
        rw [replace, resolve, resolveItems_eq,
          map_modify (h := fun v => v.replace place (resolve new)) i fun item hitem =>
            hcomm (hitems item hitem), hresolved, replace]
      | object hkeys hvalues => exact resolve_of_distinct (.object hkeys hvalues)
      | null | bool | number | text => rfl

end Questionnaire.Json
