import Questionnaire.Json.Reader

/-
  The words of a TOML document: blanks, comments, strings and keys.

  A scanner takes the characters that are left and gives what it read with the characters behind
  it, or nothing when the text has not that form.
-/

namespace Questionnaire.Toml

/-! ## Blanks and comments -/

/-- A blank within a line. -/
def isBlank (c : Char) : Bool := c = ' ' || c = '\t'

/-- The text from its first character that is no blank. -/
def skipBlanks (cs : List Char) : List Char := cs.dropWhile isBlank

/-- A character that may stand in a comment, and as itself in strings. -/
def isPlain (c : Char) : Bool := c = '\t' || (0x20 ≤ c.toNat && c.toNat ≠ 0x7F)

/-- The text behind a line break. -/
def afterLineBreak? : List Char → Option (List Char)
  | '\n' :: cs => some cs
  | '\r' :: '\n' :: cs => some cs
  | _ => none

/-- The text behind a comment, if there is one. -/
def skipComment (cs : List Char) : List Char :=
  match cs with
  | '#' :: rest => rest.dropWhile isPlain
  | cs => cs

/-- The text behind the end of a line: blanks, a comment, then a line break or the end. -/
def afterLine? (cs : List Char) : Option (List Char) :=
  match skipComment (skipBlanks cs) with
  | [] => some []
  | rest => afterLineBreak? rest

/-- The text behind blanks, line breaks and comments. -/
def skipSpace : List Char → List Char
  | [] => []
  | '\r' :: '\n' :: cs => skipSpace cs
  | c :: cs =>
    if isBlank c || c = '\n' then skipSpace cs
    else if c = '#' then skipRest cs
    else c :: cs
where
  /-- The same inside a comment. -/
  skipRest : List Char → List Char
    | [] => []
    | '\r' :: '\n' :: cs => skipSpace cs
    | c :: cs => if isPlain c then skipRest cs else if c = '\n' then skipSpace cs else c :: cs

/-! ## Strings -/

/-- The number of some hexadecimal digits. -/
def hexValue? (cs : List Char) : Option Nat :=
  cs.foldl (fun n c => do return (← n) * 16 + (← Json.hexDigit? c)) (some 0)

/-- The character with a number. -/
def charOf? (n : Nat) : Option Char := if n.isValidChar then some (Char.ofNat n) else none

/-- The character of an escape by a single letter. -/
def escapeLetters : List (Char × Char) :=
  [('b', '\x08'), ('t', '\t'), ('n', '\n'), ('f', '\x0c'), ('r', '\r'), ('"', '"'), ('\\', '\\')]

/-- The characters of a string on one line, up to its closing quote. -/
def scanBasic : List Char → Option (List Char × List Char)
  | [] => none
  | '"' :: cs => some ([], cs)
  | '\\' :: 'u' :: a :: b :: c :: d :: cs => do
    let u ← (hexValue? [a, b, c, d]).bind charOf?
    let (s, rest) ← scanBasic cs
    return (u :: s, rest)
  | '\\' :: 'U' :: a :: b :: c :: d :: e :: f :: g :: h :: cs => do
    let u ← (hexValue? [a, b, c, d, e, f, g, h]).bind charOf?
    let (s, rest) ← scanBasic cs
    return (u :: s, rest)
  | '\\' :: c :: cs => do
    let e ← escapeLetters.lookup c
    let (s, rest) ← scanBasic cs
    return (e :: s, rest)
  | c :: cs =>
    if isPlain c then (scanBasic cs).map fun (s, rest) => (c :: s, rest) else none

/-- The characters of a string without escapes, up to its closing quote. -/
def scanLiteral : List Char → Option (List Char × List Char)
  | [] => none
  | '\'' :: cs => some ([], cs)
  | c :: cs =>
    if isPlain c then (scanLiteral cs).map fun (s, rest) => (c :: s, rest) else none

/-- The text without a line break at its start. -/
def skipLineBreak (cs : List Char) : List Char := (afterLineBreak? cs).getD cs

/-- The closing quotes at the start of a text, when there are three to five of them: the quotes
that belong to the string, and the rest of the text. -/
def closing? (q : Char) : List Char → Option (List Char × List Char)
  | a :: b :: c :: d :: e :: cs =>
    if [a, b, c, d, e] = [q, q, q, q, q] then some ([q, q], cs)
    else if [a, b, c, d] = [q, q, q, q] then some ([q], e :: cs)
    else if [a, b, c] = [q, q, q] then some ([], d :: e :: cs)
    else none
  | [a, b, c, d] =>
    if [a, b, c, d] = [q, q, q, q] then some ([q], [])
    else if [a, b, c] = [q, q, q] then some ([], [d])
    else none
  | [a, b, c] => if [a, b, c] = [q, q, q] then some ([], []) else none
  | _ => none

/-- Whether a backslash is followed by blanks and a line break. -/
def breaksLine (cs : List Char) : Bool := (afterLineBreak? (skipBlanks cs)).isSome

/-- The characters of a string over several lines, up to its three closing quotes. A backslash at
the end of a line takes away the break and the blanks behind it. -/
def scanLong : Nat → List Char → Option (List Char × List Char)
  | 0, _ => none
  | n + 1, cs =>
    match closing? '"' cs, cs with
    | some found, _ => some found
    | none, '\\' :: rest =>
      if breaksLine rest then scanLong n (skipFolded rest)
      else match rest with
        | 'u' :: a :: b :: c :: d :: rest => do
          let u ← (hexValue? [a, b, c, d]).bind charOf?
          let (s, rest) ← scanLong n rest
          return (u :: s, rest)
        | 'U' :: a :: b :: c :: d :: e :: f :: g :: h :: rest => do
          let u ← (hexValue? [a, b, c, d, e, f, g, h]).bind charOf?
          let (s, rest) ← scanLong n rest
          return (u :: s, rest)
        | c :: rest => do
          let e ← escapeLetters.lookup c
          let (s, rest) ← scanLong n rest
          return (e :: s, rest)
        | [] => none
    | none, '\r' :: '\n' :: rest => (scanLong n rest).map fun (s, rest) => ('\n' :: s, rest)
    | none, c :: rest =>
      if isPlain c || c = '\n' then (scanLong n rest).map fun (s, rest) => (c :: s, rest)
      else none
    | none, [] => none
where
  /-- The text behind blanks and line breaks. -/
  skipFolded : List Char → List Char
    | '\r' :: '\n' :: cs => skipFolded cs
    | c :: cs => if isBlank c || c = '\n' then skipFolded cs else c :: cs
    | [] => []

/-- The characters of a string over several lines without escapes, up to its three closing
quotes. -/
def scanLongLiteral : List Char → Option (List Char × List Char)
  | [] => none
  | '\r' :: '\n' :: cs => (scanLongLiteral cs).map fun (s, rest) => ('\n' :: s, rest)
  | c :: cs =>
    match closing? '\'' (c :: cs) with
    | some found => some found
    | none =>
      if isPlain c || c = '\n' then (scanLongLiteral cs).map fun (s, rest) => (c :: s, rest)
      else none

/-- A string in any of its four forms. -/
def scanString (cs : List Char) : Option (String × List Char) :=
  (match cs with
    | '"' :: '"' :: '"' :: rest => scanLong (rest.length + 1) (skipLineBreak rest)
    | '"' :: rest => scanBasic rest
    | '\'' :: '\'' :: '\'' :: rest => scanLongLiteral (skipLineBreak rest)
    | '\'' :: rest => scanLiteral rest
    | _ => none).map fun (s, rest) => (String.ofList s, rest)

/-! ## Keys -/

/-- A character of a key without quotes. -/
def isKeyChar (c : Char) : Bool := c.isAlphanum || c = '-' || c = '_'

/-- One part of a key. -/
def scanKeyPart (cs : List Char) : Option (String × List Char) :=
  match cs with
  | '"' :: rest => (scanBasic rest).map fun (s, rest) => (String.ofList s, rest)
  | '\'' :: rest => (scanLiteral rest).map fun (s, rest) => (String.ofList s, rest)
  | cs =>
    let bare := cs.takeWhile isKeyChar
    if bare.isEmpty then none else some (String.ofList bare, cs.dropWhile isKeyChar)

/-- The parts of a key behind a first one, and the text behind the key. -/
def scanKeyParts : Nat → List Char → Option (List String × List Char)
  | 0, _ => none
  | n + 1, cs =>
    match skipBlanks cs with
    | '.' :: rest => do
      let (part, rest) ← scanKeyPart (skipBlanks rest)
      let (parts, rest) ← scanKeyParts n rest
      return (part :: parts, rest)
    | rest => some ([], rest)

/-- The number of keys and brackets that may stand inside one another. -/
def nestingLimit : Nat := 80

/-- A key: the path to its table and its last part. -/
def scanKey (cs : List Char) : Option ((List String × String) × List Char) := do
  let (first, rest) ← scanKeyPart (skipBlanks cs)
  let (parts, rest) ← scanKeyParts (rest.length + 1) rest
  if parts.length + 1 < nestingLimit then
    some (((first :: parts).dropLast, parts.getLastD first), rest)
  else none

end Questionnaire.Toml
