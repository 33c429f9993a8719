import Questionnaire.Error
import Questionnaire.Json.Decode

/-
  Warnings: what was left out or replaced on the way from a package to a form.
-/

namespace Questionnaire

/-- Something that was degraded silently. -/
inductive Warning
  | decoding (notice : Json.Notice)
  | unknownFieldType (field type : String)
  | unresolvableReference (field : String)
  | skippedUnit (error : FormError)
  | danglingAttribute (name unit : String) (error : FormError)
  | undefinedPage (captureBase page : String)
  | noPresentations
  | presentationOfUnknownUnit (captureBase : String)
  | defaultPage (step : String)
  | discoveryOrderKept (cycle : CyclicReferences)
  | invalidFormat (field : String)
  | recordOfUnknownStep (record step : String)
  | answerOfUnknownField (answer step : String)
  | vanishedRecord (record : String)

/-- The wording of a notice. -/
def noticeText : Json.Notice → String
  | .malformedSlot => "malformed overlay data"
  | .nonScalar value => "ignoring non-scalar default value: " ++ value.toText Json.compact

/-- The wording of a warning. -/
def Warning.message : Warning → String
  | .decoding notice => noticeText notice
  | .unknownFieldType field type =>
    "field " ++ ticked field ++ ": unknown type " ++ ticked type ++ ", rendering as textarea"
  | .unresolvableReference field =>
    "reference field " ++ ticked field ++ " has no resolvable target"
  | .skippedUnit error => "skipping capture unit: " ++ error.message
  | .danglingAttribute name unit error =>
    "attribute " ++ ticked name ++ " of " ++ unit ++ ": " ++ error.message
  | .undefinedPage captureBase page =>
    "presentation for " ++ captureBase ++ " lists page " ++ ticked page ++ " without a definition"
  | .noPresentations => "no presentations found in the package"
  | .presentationOfUnknownUnit captureBase =>
    "presentation " ++ captureBase ++ " describes an unknown capture unit"
  | .defaultPage step => "no presentation pages for " ++ step ++ ", using a default page"
  | .discoveryOrderKept cycle => cycle.message ++ ", keeping discovery order"
  | .invalidFormat field => "field " ++ ticked field ++ ": ignoring invalid format"
  | .recordOfUnknownStep record step =>
    "child record " ++ record ++ " belongs to unknown step " ++ step
  | .answerOfUnknownField answer step =>
    "answer " ++ ticked answer ++ " is not a field of step " ++ step
  | .vanishedRecord record => "active child record " ++ record ++ " vanished"

end Questionnaire
