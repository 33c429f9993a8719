import Questionnaire.Review
import Questionnaire.Text.Colour

/-
  The report on reviewed answers: a line for each rejected one and their number, or that all are
  valid. Names stand in the chosen language; where the form does not know a step or a field, its
  id stands in.
-/

namespace Questionnaire
open Text

namespace InvalidAnswer

/-- The step of the answer, and its record. -/
def place (a : InvalidAnswer) (form : Form) (language : String) : String :=
  let step := ((form.step? a.step).map (·.name language)).getD a.step
  match a.record with
  | some record => step ++ " #" ++ record
  | none => step

/-- The label of the answer's field. -/
def fieldLabel (a : InvalidAnswer) (form : Form) (language : String) : String :=
  (((form.step? a.step).bind (·.field? a.field)).map (·.displayLabel language)).getD a.field

/-- The line of a rejected answer. -/
def line (a : InvalidAnswer) (form : Form) (language : String) (coloured : Bool) : String :=
  paint coloured { bold := true } (a.place form language) ++ " " ++ a.fieldLabel form language ++
    ": " ++ paint coloured { colour := some .red } a.rejection.message

end InvalidAnswer

/-- The report on rejected answers. -/
def Form.verdict (form : Form) (invalid : List InvalidAnswer) (language : String)
    (coloured : Bool) : String :=
  if invalid.isEmpty then paint coloured { colour := some .green } "all answers are valid"
  else
    String.join (invalid.map fun a => a.line form language coloured ++ "\n") ++
      paint coloured { bold := true, colour := some .red }
        (decimal invalid.length ++ " invalid answer(s)")

end Questionnaire
