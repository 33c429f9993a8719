import Questionnaire.Toml.Moment
import Questionnaire.Toml.Word

/-
  Reading TOML documents.

  A document is a list of lines: empty ones, comments, headers and keys with values. Only arrays
  and long strings go on over several lines. The recursion is bounded by the length of the text,
  the nesting of arrays and inline tables by `nestingLimit`.
-/

namespace Questionnaire.Toml

/-! ## Values -/

/-- A word that stands for a value. -/
def scanWord (word : List Char) (v : Value) (cs : List Char) : Option (Value × List Char) :=
  if cs.take word.length = word then some (v, cs.drop word.length) else none

/-- A value that starts with a digit or a sign. -/
def scanNumeric (cs : List Char) : Option (Value × List Char) :=
  if startsDate cs || startsTime cs then scanMoment cs
  else
    let (sign, behind) := scanSign cs
    match behind with
    | 'i' :: _ => scanSpecial sign behind
    | 'n' :: _ => scanSpecial sign behind
    | _ => scanNumber cs

mutual

/-- The value at the start of a text, inside `depth` arrays and inline tables. -/
def scanValue (fuel depth : Nat) (cs : List Char) : Option (Value × List Char) :=
  match fuel with
  | 0 => none
  | fuel + 1 =>
    match cs with
    | [] => none
    | '[' :: rest =>
      if depth + 1 < nestingLimit then
        (scanItems fuel (depth + 1) rest).map fun (items, rest) => (.array items, rest)
      else none
    | '\x7b' :: rest =>
      if depth + 1 < nestingLimit then
        match skipBlanks rest with
        | '\x7d' :: rest => some (.table .inlined [], rest)
        | rest => scanInline fuel (depth + 1) [] rest
      else none
    | 't' :: _ => scanWord ['t', 'r', 'u', 'e'] (.bool true) cs
    | 'f' :: _ => scanWord ['f', 'a', 'l', 's', 'e'] (.bool false) cs
    | 'i' :: _ => scanSpecial [] cs
    | 'n' :: _ => scanSpecial [] cs
    | c :: _ =>
      if c = '"' ∨ c = '\'' then (scanString cs).map fun (s, rest) => (.text s, rest)
      else if c.isDigit ∨ c = '+' ∨ c = '-' then scanNumeric cs
      else none

/-- The items of an array up to its closing bracket; a comma may stand behind the last. -/
def scanItems (fuel depth : Nat) (cs : List Char) : Option (List Value × List Char) :=
  match fuel with
  | 0 => none
  | fuel + 1 =>
    match skipSpace cs with
    | ']' :: rest => some ([], rest)
    | rest => do
      let (item, rest) ← scanValue fuel depth rest
      match skipSpace rest with
      | ',' :: rest =>
        let (items, rest) ← scanItems fuel depth rest
        return (item :: items, rest)
      | ']' :: rest => return ([item], rest)
      | _ => none

/-- The entries of an inline table up to its closing brace, added to those already read. -/
def scanInline (fuel depth : Nat) (done : Entries) (cs : List Char) :
    Option (Value × List Char) :=
  match fuel with
  | 0 => none
  | fuel + 1 => do
    let ((path, key), rest) ← scanKey cs
    let rest ← after? '=' rest
    let (v, rest) ← scanValue fuel depth (skipBlanks rest)
    let done ← Entries.addDotted path key v .inlined done
    match skipBlanks rest with
    | ',' :: rest => scanInline fuel depth done rest
    | '\x7d' :: rest => return (.table .inlined done, rest)
    | _ => none

end

/-! ## Lines -/

/-- A line with a key and its value. -/
def scanEntry (d : Draft) (cs : List Char) : Option (Draft × List Char) := do
  let ((path, key), rest) ← scanKey cs
  let rest ← after? '=' rest
  let (v, rest) ← scanValue (rest.length + 1) 0 (skipBlanks rest)
  return (← d.add path key v, ← afterLine? rest)

/-- A line with a header, behind its first bracket. -/
def scanHeader (d : Draft) (cs : List Char) : Option (Draft × List Char) :=
  match cs with
  | '[' :: cs => do
    let ((path, key), rest) ← scanKey cs
    let rest ← after? ']' (← after? ']' rest)
    let d ← d.appendTable path key
    return (d, ← afterLine? rest)
  | cs => do
    let ((path, key), rest) ← scanKey cs
    let rest ← after? ']' rest
    let d ← d.openTable path key
    return (d, ← afterLine? rest)

/-- The draft with all lines of a text. -/
def scanLines : Nat → Draft → List Char → Option Draft
  | 0, _, _ => none
  | n + 1, d, cs =>
    match skipBlanks cs with
    | [] => some d
    | '#' :: rest => (afterLine? ('#' :: rest)).bind (scanLines n d)
    | '\n' :: rest => scanLines n d rest
    | '\r' :: rest => (afterLineBreak? ('\r' :: rest)).bind (scanLines n d)
    | '[' :: rest => (scanHeader d rest).bind fun (d, rest) => scanLines n d rest
    | rest => (scanEntry d rest).bind fun (d, rest) => scanLines n d rest

/-- The root table of a document; none when the text is not TOML. A byte order mark may stand in
front. -/
def Entries.ofText? (s : String) : Option Entries :=
  let cs := match s.toList with
    | '\uFEFF' :: cs => cs
    | cs => cs
  (scanLines (cs.length + 1) {} cs).map (·.root)

end Questionnaire.Toml
