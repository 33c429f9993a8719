import Questionnaire.Answer.Basic

/-
  The committed answers of a form.

  Parent steps hold their answers directly. The steps that references lead to are filled in as
  records, each owned by a reference field and, when that field belongs to another record, by
  that record. Removing a record removes all records nested in it.
-/

namespace Questionnaire

/-- One entry of a referenced step. -/
structure ChildRecord where
  id : String := ""
  /-- The reference field that owns the record. -/
  field : String := ""
  /-- The record that the reference field belongs to, if it belongs to one. -/
  owner : Option String := none
  /-- The step that the record is filled in. -/
  step : String := ""
  values : Values := ∅
deriving DecidableEq

/-- The committed answers of a form. -/
structure FormData where
  /-- The answers of each step. -/
  steps : SortedMap Values := ∅
  /-- The records in the order of their creation. -/
  records : List ChildRecord := []
deriving DecidableEq

namespace FormData

/-- The answers of a step. -/
def stepValues? (d : FormData) (step : String) : Option Values := d.steps.get? step

/-- The first record with an id. -/
def record? (d : FormData) (id : String) : Option ChildRecord := d.records.find? (·.id = id)

/-- The records that a field owns inside a record, or outside all records. -/
def recordsOf (d : FormData) (field : String) (owner : Option String) : List ChildRecord :=
  d.records.filter fun r => r.field = field && r.owner = owner

/-- A list with its first element of a kind replaced. -/
def replaceFirst {α : Type} (p : α → Bool) (f : α → α) : List α → List α
  | [] => []
  | a :: as => if p a then f a :: as else a :: replaceFirst p f as

/-- The answers with the first record of an id changed. -/
def modifyRecord (d : FormData) (id : String) (f : ChildRecord → ChildRecord) : FormData :=
  { d with records := replaceFirst (·.id = id) f d.records }

/-- The answers with one more record. -/
def addRecord (d : FormData) (r : ChildRecord) : FormData :=
  { d with records := d.records ++ [r] }

/-! ## Nested records -/

/-- The records owned by one of the given ones. -/
def ownedBy (records : List ChildRecord) (ids : List String) : List String :=
  (records.filter fun r => r.owner.any ids.contains).map (·.id)

/-- The given records with those owned by them, through up to `n` owners. -/
def withOwned (records : List ChildRecord) : Nat → List String → List String
  | 0, ids => ids
  | n + 1, ids =>
    withOwned records n (ids ++ (ownedBy records ids).filter fun id => !ids.contains id)

/-- A record and all records nested in it. -/
def nested (d : FormData) (id : String) : List String := withOwned d.records d.records.length [id]

/-- Removes a record and all records nested in it. -/
def removeRecord (d : FormData) (id : String) : FormData :=
  let doomed := d.nested id
  { d with records := d.records.filter fun r => !doomed.contains r.id }

/-- The records that removing one takes away, in the order of their creation. -/
def removed (d : FormData) (id : String) : List ChildRecord :=
  let doomed := d.nested id
  d.records.filter fun r => doomed.contains r.id

end FormData

/-! ## JSON -/

open Json Json.Decoder

/-- Answers by field. -/
def valuesDecoder : Decoder Values := sortedMap Answer.decoder

/-- A record. -/
def ChildRecord.decoder : Decoder ChildRecord :=
  record [
    required "id" text fun r v => { r with id := v },
    required "parent_field_id" text fun r v => { r with field := v },
    optional "parent_record_id" (option text) fun r v => { r with owner := v },
    required "step_id" text fun r v => { r with step := v },
    optional "data" valuesDecoder fun r v => { r with values := v }] {}

/-- The answers of a form. -/
def FormData.decoder : Decoder FormData :=
  record [
    optional "steps" (sortedMap valuesDecoder) fun d v => { d with steps := v },
    optional "children" (list ChildRecord.decoder) fun d v => { d with records := v }] {}

/-- A record as JSON. -/
def ChildRecord.toJson (r : ChildRecord) : Json :=
  .object ([("id", .text r.id), ("parent_field_id", .text r.field)] ++
    (match r.owner with
      | none => []
      | some owner => [("parent_record_id", .text owner)]) ++
    [("step_id", .text r.step), ("data", r.values.toJson)])

/-- The answers of a form as JSON. -/
def FormData.toJson (d : FormData) : Json :=
  .object [("steps", ofMap Values.toJson d.steps), ("children", ofList ChildRecord.toJson d.records)]

end Questionnaire
