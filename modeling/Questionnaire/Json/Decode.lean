import Questionnaire.Json.Reader
import Questionnaire.SortedMap

/-
  Decoding JSON into the types of a package and of a form.

  A `Decoder` turns a reading into a value or a fault and lists the notices that lenient slots
  left on the way. A record is given as an object, where unknown keys are passed over and a known
  key may stand once, or as an array of its slots in order. A lenient slot never fails on
  well-formed JSON: `null` and every value of the wrong shape give its default, the latter with a
  notice. A choice between shapes takes the first shape that the whole value has.
-/

namespace Questionnaire.Json

/-- What a lenient slot leaves behind. -/
inductive Notice
  /-- A slot of the wrong shape was replaced by its default. -/
  | malformedSlot
  /-- A default value was neither text nor a number nor a truth value. -/
  | nonScalar (value : Json)
deriving Repr

/-- The outcome of decoding, and the notices left until then. -/
structure Decoded (α : Type) where
  outcome : Except Fault α
  notices : List Notice

namespace Decoded

/-- Fails with a fault. -/
def fail {α : Type} (f : Fault) : Decoded α := ⟨.error f, []⟩

/-- Goes on with the value of a first decoding, if it has one. -/
def andThen {α β : Type} (d : Decoded α) (next : α → Decoded β) : Decoded β :=
  match d.outcome with
  | .ok a => let rest := next a; ⟨rest.outcome, d.notices ++ rest.notices⟩
  | .error f => ⟨.error f, d.notices⟩

instance : Monad Decoded where
  pure a := ⟨.ok a, []⟩
  bind := andThen

/-- The outcome of a step that leaves no notices. -/
def lift {α : Type} (outcome : Except Fault α) : Decoded α := ⟨outcome, []⟩

@[simp] theorem outcome_pure {α : Type} (a : α) : (pure a : Decoded α).outcome = .ok a := rfl

@[simp] theorem pure_bind {α β : Type} (a : α) (f : α → Decoded β) : (pure a >>= f) = f a := by
  simp [bind, andThen, pure]

end Decoded

/-- A way to decode a reading. -/
abbrev Decoder (α : Type) := Origin → Reading → Decoded α

namespace Decoder

variable {α β σ : Type}

/-- What a decoder makes of a JSON value. -/
def fromValue (d : Decoder α) (j : Json) : Decoded α := d .value j.reading

/-- What a decoder makes of a text. Text behind the value is a fault, found after those in it. -/
def fromText (d : Decoder α) (s : String) : Decoded α := do
  let document := Document.ofText s
  let a ← d .text document.root
  if document.isClosed then return a else .fail .malformed

/-- The value that a decoder makes of a JSON value, if it has the right shape. -/
def value? (d : Decoder α) (j : Json) : Option α := (d.fromValue j).outcome.toOption

/-! ## Scalars -/

/-- A string. -/
def text : Decoder String := fun _ r =>
  match r with
  | .text s => pure s
  | r => .fail r.unexpected

/-- A natural number below a bound. -/
def naturalBelow (bound : Nat) : Decoder Nat := fun _ r =>
  match r with
  | .number (.natural n) => if n < bound then pure n else .fail .mismatch
  | r => .fail r.unexpected

/-- Any JSON value, repeated keys resolved. -/
def json : Decoder Json := fun _ r => .lift (r.content.map resolve)

/-- A value or `null`. -/
def option (d : Decoder α) : Decoder (Option α) := fun origin r =>
  match r with
  | .null => pure none
  | r => some <$> d origin r

/-- The value of one of several names. -/
def named (names : List (String × α)) (s : String) : Decoded α :=
  match names.lookup s with
  | some a => pure a
  | none => .fail .mismatch

/-- One of several names, given as a string or as an object from the name to `null`. -/
def oneOf (names : List (String × α)) : Decoder α := fun origin r =>
  match r with
  | .text s => named names s
  | .object true _ _ => .fail .malformed
  | .object false [] ending => .fail (ending.getD origin.surplus)
  | .object false ((.error flaw, _) :: _) _ => .fail flaw.named
  | .object false [(.ok key, .null)] ending => do
    let a ← named names key
    .lift (Reading.expectEnd ending)
    return a
  | .object false ((.ok key, value) :: _) _ => do
    let _ ← named names key
    match value with
    | .null => .fail origin.surplus
    | value => .fail value.unexpected
  | .flawed flaw => .fail flaw.named
  | _ => .fail origin.surplus

/-! ## Lists and maps -/

/-- The items of a list, decoded in order. -/
def items (d : Decoder α) (origin : Origin) : List Reading → Decoded (List α)
  | [] => pure []
  | r :: rs => do
    let a ← d origin r
    return a :: (← items d origin rs)

/-- A list. -/
def list (d : Decoder α) : Decoder (List α) := fun origin r =>
  match r with
  | .array true _ _ => .fail .malformed
  | .array false rs ending => do
    let as ← items d origin rs
    .lift (Reading.expectEnd ending)
    return as
  | r => .fail r.unexpected

/-- The entries of an object, decoded in order. -/
def entries (d : Decoder α) (origin : Origin) :
    List (Except Flaw String × Reading) → Decoded (List (String × α))
  | [] => pure []
  | (.error flaw, _) :: _ => .fail flaw.read
  | (.ok key, r) :: rs => do
    let a ← d origin r
    return (key, a) :: (← entries d origin rs)

/-- The entries of an object in order. -/
def ordered (d : Decoder α) : Decoder (List (String × α)) := fun origin r =>
  match r with
  | .object true _ _ => .fail .malformed
  | .object false rs ending => do
    let as ← entries d origin rs
    .lift (Reading.expectEnd ending)
    return as
  | r => .fail r.unexpected

/-- A map; of a repeated key the last value counts. -/
def sortedMap (d : Decoder α) : Decoder (SortedMap α) := fun origin r => do
  return SortedMap.ofList (← ordered d origin r)

/-- The entries of an object as JSON values, each key in its first place with its last value. -/
def jsonEntries : Decoder (List (String × Json)) := fun origin r => do
  return (← ordered json origin r).foldl (fun done e => put e.1 e.2 done) []

/-! ## Records -/

/-- Where a slot may be missing. -/
inductive Presence
  | optional
  | required
  /-- Missing from an object it has its default, missing from an array it is a fault. -/
  | requiredInArray
deriving DecidableEq

/-- A slot of a record: its key, and how its value is put into the record. -/
structure Slot (σ : Type) where
  key : String
  presence : Presence
  read : Origin → Reading → σ → Decoded σ

/-- A slot with a decoder. -/
def slot (key : String) (presence : Presence) (d : Decoder α) (put : σ → α → σ) : Slot σ :=
  ⟨key, presence, fun origin r s => do return put s (← d origin r)⟩

/-- A slot that keeps its default when it is missing. -/
def optional (key : String) (d : Decoder α) (put : σ → α → σ) : Slot σ :=
  slot key .optional d put

/-- A slot that must be there. -/
def required (key : String) (d : Decoder α) (put : σ → α → σ) : Slot σ :=
  slot key .required d put

/-- The record read from the entries of an object, and the keys of its slots that were met. -/
def keyed (slots : List (Slot σ)) (origin : Origin) (seen : List String) (s : σ) :
    List (Except Flaw String × Reading) → Decoded (List String × σ)
  | [] => pure (seen, s)
  | (.error flaw, _) :: _ => .fail flaw.read
  | (.ok key, r) :: rs =>
    match slots.find? (·.key = key) with
    | some slot => do
      if seen.contains key then .fail .mismatch
      keyed slots origin (key :: seen) (← slot.read origin r s) rs
    | none => do
      .lift (Reading.expectEnd r.skipFault)
      keyed slots origin seen s rs

/-- The record read from the items of an array. -/
def positional (origin : Origin) (ending : Option Fault) :
    List (Slot σ) → List Reading → σ → Decoded σ
  | [], [], s => do
    .lift (Reading.expectEnd ending)
    return s
  | [], _ :: _, _ => .fail origin.surplus
  | slot :: slots, [], s => do
    .lift (Reading.expectEnd ending)
    if slot.presence = .optional then positional origin ending slots [] s else .fail .mismatch
  | slot :: slots, r :: rs, s => do
    positional origin ending slots rs (← slot.read origin r s)

/-- A record with the given slots; those that are missing are as in `blank`. -/
def record (slots : List (Slot σ)) (blank : σ) : Decoder σ := fun origin r =>
  match r with
  | .object true _ _ => .fail .malformed
  | .object false rs ending => do
    let (seen, s) ← keyed slots origin [] blank rs
    .lift (Reading.expectEnd ending)
    if slots.all fun slot => slot.presence ≠ .required || seen.contains slot.key then return s
    else .fail .mismatch
  | .array true _ _ => .fail .malformed
  | .array false rs ending => positional origin ending slots rs blank
  | r => .fail r.unexpected

/-! ## Lenient slots and choices of shape -/

/-- A slot that falls back to a default. -/
def lenient (d : Decoder α) (default : α) : Decoder α := fun _ r =>
  match r.content with
  | .error f => .fail f
  | .ok content =>
    match resolve content with
    | .null => pure default
    | j =>
      match d.fromValue j with
      | ⟨.ok a, notices⟩ => ⟨.ok a, notices⟩
      | ⟨.error _, notices⟩ => ⟨.ok default, notices ++ [.malformedSlot]⟩

/-- A text that may also be given as a number or a truth value. -/
def scalarText : Decoder (Option String) := fun _ r =>
  match r.content with
  | .error f => .fail f
  | .ok content =>
    match resolve content with
    | .null => pure none
    | .text s => pure (some s)
    | .number n => pure (some n.toText)
    | .bool b => pure (some (if b then "true" else "false"))
    | other => ⟨.ok none, [.nonScalar other]⟩

/-- The first shape that the whole value has. -/
def firstOf (shapes : List (Json → Option α)) : Decoder α := fun _ r =>
  match r.content with
  | .error f => .fail f
  | .ok j =>
    match shapes.findSome? (· j) with
    | some a => pure a
    | none => .fail .mismatch

/-- The shapes of an object only. -/
def objectOnly (shape : Json → Option α) : Json → Option α
  | .object entries => shape (.object entries)
  | _ => none

end Decoder
end Questionnaire.Json
