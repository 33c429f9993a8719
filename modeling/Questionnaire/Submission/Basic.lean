import Questionnaire.Answer.Basic
import Questionnaire.Field.Serial

/-
  The submission document: questions with their answers.

  A question shows one field in one language. A reference field holds one entry for each of its
  records, and the entry holds the questions of the record's step. The answer of a question is
  always written, entries only where there are any.
-/

namespace Questionnaire

mutual

/-- One field with its answer. -/
inductive Question
  | mk (id label : String) (kind : FieldKind) (answer : Option Answer) (entries : List RecordEntry)

/-- The questions of one record. -/
inductive RecordEntry
  | mk (id step : String) (questions : List Question)

end

namespace Question

/-- The id of the field. -/
def id : Question → String
  | mk id .. => id

/-- The label of the field. -/
def label : Question → String
  | mk _ label .. => label

/-- The kind of input of the field. -/
def kind : Question → FieldKind
  | mk _ _ kind .. => kind

/-- The answer, if there is one. -/
def answer : Question → Option Answer
  | mk _ _ _ answer _ => answer

/-- The entries of the field's records. -/
def entries : Question → List RecordEntry
  | mk _ _ _ _ entries => entries

end Question

namespace RecordEntry

/-- The id of the record. -/
def id : RecordEntry → String
  | mk id .. => id

/-- The step that the record is filled in. -/
def step : RecordEntry → String
  | mk _ step _ => step

/-- The questions of the record's step. -/
def questions : RecordEntry → List Question
  | mk _ _ questions => questions

end RecordEntry

/-! ## Writing -/

mutual

/-- A question as JSON. -/
def Question.toJson : Question → Json
  | .mk id label kind answer entries =>
    .object ([("id", .text id), ("label", .text label), ("type", kind.toJson),
      ("answer", Json.ofOption Answer.toJson answer)] ++
      if entries.isEmpty then [] else [("children", .array (RecordEntry.listToJson entries))])

/-- An entry as JSON. -/
def RecordEntry.toJson : RecordEntry → Json
  | .mk id step questions =>
    .object [("id", .text id), ("step", .text step),
      ("questions", .array (Question.listToJson questions))]

/-- Questions as JSON. -/
def Question.listToJson : List Question → List Json
  | [] => []
  | q :: qs => q.toJson :: Question.listToJson qs

/-- Entries as JSON. -/
def RecordEntry.listToJson : List RecordEntry → List Json
  | [] => []
  | e :: es => e.toJson :: RecordEntry.listToJson es

end

/-! ## Reading -/

open Json Json.Decoder

/-- The slots of a question as they are read. -/
structure QuestionSlots where
  id : String := ""
  label : String := ""
  kind : FieldKind := .textarea
  answer : Option Answer := none
  entries : List RecordEntry := []

/-- An entry whose questions are read by a given decoder. -/
def RecordEntry.decoderOf (question : Decoder Question) : Decoder RecordEntry := fun origin r => do
  let (id, step, questions) ← record [
    required "id" text fun e v => (v, e.2),
    required "step" text fun e v => (e.1, v, e.2.2),
    required "questions" (list question) fun e v => (e.1, e.2.1, v)] ("", "", []) origin r
  return .mk id step questions

/-- A question whose entries are nested up to `n` times. -/
def Question.decoderUpTo : Nat → Decoder Question
  | 0 => fun _ r => .fail r.unexpected
  | n + 1 => fun origin r => do
    let q ← record [
      required "id" text fun q v => { q with id := v },
      required "label" text fun q v => { q with label := v },
      required "type" FieldKind.decoder fun q v => { q with kind := v },
      slot "answer" .requiredInArray (option Answer.decoder) fun q v => { q with answer := v },
      optional "children" (list (RecordEntry.decoderOf (decoderUpTo n)))
        fun q v => { q with entries := v }] ({} : QuestionSlots) origin r
    return .mk q.id q.label q.kind q.answer q.entries

/-- A question; its own nesting bounds that of its entries. -/
def Question.decoder : Decoder Question := fun origin r => decoderUpTo r.depth origin r

end Questionnaire
