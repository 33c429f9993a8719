import Questionnaire.Answer.Basic
import Questionnaire.Field.Basic
import Questionnaire.Pattern.Reader
import Questionnaire.Warning

/-
  Judging answers.

  The rules of a field are applied in order and the first one that fails decides: an answer must
  be there, match the format, be an entry code, be well-formed text where UTF-8 is asked for, and
  be one of the options of the language. An empty answer is only asked whether it must be there.
  Of a list every item is judged by itself. A format that is no pattern does not count.
-/

namespace Questionnaire

/-- The pattern of a field's format. -/
def Field.pattern? (f : Field) : Option Pattern.Expr := f.rules.format.bind Pattern.Expr.ofText?

/-- Whether the answers of a field must be well-formed text. -/
def Field.wantsUtf8 (f : Field) : Bool :=
  f.rules.characterEncoding.any fun e => Text.sameIgnoringCase (Text.trim e) "utf-8"

/-- The options that an answer is held against, if there are any. -/
def Field.offered? (f : Field) (language : String) : Option EntryOptions :=
  (f.options? language).filter (!·.isEmpty)

/-- Judges a single text by the rules behind the first. -/
def Field.judge (f : Field) (language : String) (s : String) (isWellFormed : Bool) :
    Option Rejection :=
  if f.pattern?.any fun p => !p.isMatch s then some .formatMismatch
  else if !f.rules.entryCodes.isEmpty && !f.rules.entryCodes.contains s then
    some .entryCodeMismatch
  else if f.wantsUtf8 && !isWellFormed then some .invalidEncoding
  else if (f.offered? language).any fun options => !options.offers s then some .optionMismatch
  else none

/-- Judges an answer that is there. -/
def Field.judgeAnswer (f : Field) (language : String) : Answer → Option Rejection
  | .text s => f.judge language s true
  | .list items => items.findSome? fun s => f.judge language s true
  | .wide units => f.judge language (Text.Utf16.lossy units) (Text.Utf16.isWellFormed units)

/-- Judges an answer, or that there is none: the reason why it is rejected, if it is. -/
def Field.validate (f : Field) (answer : Option Answer) (language : String) : Option Rejection :=
  match answer.filter (!·.isEmpty) with
  | none => if f.isMandatory then some .required else none
  | some a => f.judgeAnswer language a

/-- The warning of judging an answer by a format that is no pattern. -/
def Field.validationWarnings (f : Field) (answer : Option Answer) : List Warning :=
  if (answer.filter (!·.isEmpty)).isSome && f.rules.format.isSome && f.pattern?.isNone then
    [.invalidFormat f.id]
  else []

end Questionnaire
