/-
  Coloured terminal text.

  A span is written as an escape sequence that names its styles and then its colour, the text,
  and a reset. Where the text already holds a reset, the span's own style is opened again behind
  it, so that spans may be nested. Without colours a span is its text.
-/

namespace Questionnaire.Text

/-- The colours used in reports. -/
inductive Colour
  | red | green | yellow | blue | purple | cyan
deriving DecidableEq, Repr

/-- The terminal code of a foreground colour. -/
def Colour.code : Colour → String
  | .red => "31"
  | .green => "32"
  | .yellow => "33"
  | .blue => "34"
  | .purple => "35"
  | .cyan => "36"

/-- How a span is shown. -/
structure Style where
  bold : Bool := false
  dimmed : Bool := false
  italic : Bool := false
  underline : Bool := false
  colour : Option Colour := none
deriving DecidableEq, Repr

/-- The terminal codes of a style: its attributes, then its colour. -/
def Style.codes (s : Style) : List String :=
  (if s.bold then ["1"] else []) ++ (if s.dimmed then ["2"] else []) ++
    (if s.italic then ["3"] else []) ++ (if s.underline then ["4"] else []) ++
    (s.colour.map Colour.code).toList

/-- The sequence that opens a span. -/
def Style.opening (s : Style) : String :=
  "\x1b[" ++ String.intercalate ";" s.codes ++ "m"

/-- The sequence that closes a span. -/
def reset : String := "\x1b[0m"

/-- The text with `opening` written again behind each reset in it. -/
def reopen (opening : List Char) (text : List Char) : List Char :=
  match text with
  | '\x1b' :: '[' :: '0' :: 'm' :: rest => reset.toList ++ opening ++ reopen opening rest
  | c :: rest => c :: reopen opening rest
  | [] => []

/-- A span of text in a style; the bare text when colours are off. -/
def paint (coloured : Bool) (style : Style) (text : String) : String :=
  if coloured then
    style.opening ++ String.ofList (reopen style.opening.toList text.toList) ++ reset
  else text

end Questionnaire.Text
