import Questionnaire.Json.Reading
import Questionnaire.Text.Utf16

/-
  Reading JSON text.

  The reader goes through the text once and never fails: it gives a `Reading`, and the text that
  follows the value unless a flaw stopped it. A decoder may open 127 containers inside one
  another; deeper ones are marked, since passing over them has no such limit. The recursion is
  bounded by the length of the text.
-/

namespace Questionnaire.Json

/-- The characters that may stand between tokens. -/
def isSpace (c : Char) : Bool :=
  c = ' ' || c = '\t' || c = '\n' || c = '\r'

/-- The text from its first character that is no space. -/
def skipSpaces (cs : List Char) : List Char := cs.dropWhile isSpace

/-- The rest of a text behind a fixed word. -/
def scanWord : List Char → List Char → Except Fault (List Char)
  | [], cs => .ok cs
  | _ :: _, [] => .error .truncated
  | w :: word, c :: cs => if w = c then scanWord word cs else .error .malformed

/-! ## Strings -/

/-- A part of a string: a character, or a code unit given by its number. -/
inductive Piece
  | char (c : Char)
  | unit (u : UInt16)
deriving DecidableEq

/-- The value of a hexadecimal digit. -/
def hexDigit? (c : Char) : Option Nat :=
  if c.isDigit then some (c.toNat - '0'.toNat)
  else if 'a'.toNat ≤ c.toNat && c.toNat ≤ 'f'.toNat then some (c.toNat - 'a'.toNat + 10)
  else if 'A'.toNat ≤ c.toNat && c.toNat ≤ 'F'.toNat then some (c.toNat - 'A'.toNat + 10)
  else none

/-- The code unit of four hexadecimal digits. -/
def hexUnit? (a b c d : Char) : Option UInt16 := do
  let a ← hexDigit? a
  let b ← hexDigit? b
  let c ← hexDigit? c
  let d ← hexDigit? d
  return UInt16.ofNat (((a * 16 + b) * 16 + c) * 16 + d)

/-- The character of an escape by a single letter. -/
def escaped? (c : Char) : Option Char :=
  if c = '"' then some '"'
  else if c = '\\' then some '\\'
  else if c = '/' then some '/'
  else if c = 'b' then some '\x08'
  else if c = 'f' then some '\x0c'
  else if c = 'n' then some '\n'
  else if c = 'r' then some '\r'
  else if c = 't' then some '\t'
  else none

/-- The number of bytes of a text in UTF-8. -/
def byteCount (cs : List Char) : Nat := cs.foldl (fun n c => n + c.utf8Size) 0

/-- The parts of a string up to its closing quote, and the text behind the quote or the fault that
keeps it from being found. -/
def scanString : List Char → List Piece × Except Fault (List Char)
  | [] => ([], .error .truncated)
  | '"' :: rest => ([], .ok rest)
  | '\\' :: 'u' :: a :: b :: c :: d :: rest =>
    match hexUnit? a b c d with
    | some u => let (pieces, after) := scanString rest; (.unit u :: pieces, after)
    | none => ([], .error .malformed)
  | '\\' :: 'u' :: rest => ([], .error (if byteCount rest < 4 then .truncated else .malformed))
  | '\\' :: c :: rest =>
    match escaped? c with
    | some e => let (pieces, after) := scanString rest; (.char e :: pieces, after)
    | none => ([], .error .malformed)
  | ['\\'] => ([], .error .truncated)
  | c :: rest =>
    if c.toNat < 0x20 then ([], .error .malformed)
    else let (pieces, after) := scanString rest; (.char c :: pieces, after)

/-- The characters of a string; none when a surrogate has no partner next to it. -/
def joinPieces : List Piece → Option (List Char)
  | [] => some []
  | .char c :: rest => (joinPieces rest).map (c :: ·)
  | .unit u :: .unit v :: rest =>
    if Text.Utf16.isLeading u then
      if Text.Utf16.isTrailing v then (joinPieces rest).map (Text.Utf16.pair u v :: ·) else none
    else if Text.Utf16.isTrailing u then none
    else (joinPieces (.unit v :: rest)).map (Char.ofNat u.toNat :: ·)
  | .unit u :: rest =>
    if Text.Utf16.isLeading u || Text.Utf16.isTrailing u then none
    else (joinPieces rest).map (Char.ofNat u.toNat :: ·)

/-- The parts without a leading surrogate at the end, whose partner might still have come. -/
def settled (pieces : List Piece) : List Piece :=
  match pieces.getLast? with
  | some (.unit u) => if Text.Utf16.isLeading u then pieces.dropLast else pieces
  | _ => pieces

/-- The string whose opening quote was just read, and the text behind it. -/
def readString (cs : List Char) : Except Flaw String × Option (List Char) :=
  match scanString cs with
  | (pieces, .ok rest) =>
    match joinPieces pieces with
    | some chars => (.ok (String.ofList chars), some rest)
    | none => (.error .inner, some rest)
  | (pieces, .error fault) =>
    if (joinPieces (settled pieces)).isSome then (.error (.stop fault), none)
    else (.error ⟨.malformed, some fault, .malformed⟩, none)

/-! ## Values -/

/-- The members of a container with the fault behind them, and the text that follows it. -/
structure Members (α : Type) where
  members : List α
  ending : Option Fault
  rest : Option (List Char)

/-- The members with one more in front. -/
def Members.cons {α : Type} (a : α) (m : Members α) : Members α :=
  ⟨a :: m.members, m.ending, m.rest⟩

/-- The fault of a text that should go on with a separator or a closing bracket. -/
def separatorFault (cs : List Char) : Fault :=
  if cs.isEmpty then .truncated else .malformed

/-- The value that a fixed word stands for, given the letters behind its first. -/
def readWord (value : Reading) (letters cs : List Char) : Reading × Option (List Char) :=
  match scanWord letters cs with
  | .ok after => (value, some after)
  | .error fault => (.flawed ⟨fault, some fault, .malformed⟩, none)

/-- How many containers a decoder opens inside one another. -/
def depthLimit : Nat := 127

mutual

/-- The value at the start of a text, with `depth` containers still to be opened. -/
def readValue (fuel depth : Nat) (cs : List Char) : Reading × Option (List Char) :=
  match fuel with
  | 0 => (.flawed (.stop .truncated), none)
  | fuel + 1 =>
    match skipSpaces cs with
    | [] => (.flawed (.stop .truncated), none)
    | '"' :: rest =>
      match readString rest with
      | (.ok s, after) => (.text s, after)
      | (.error flaw, after) => (.flawed flaw, after)
    | '[' :: rest =>
      match skipSpaces rest with
      | ']' :: after => (.array (depth == 0) [] none, some after)
      | [] => (.array (depth == 0) [] (some .truncated), none)
      | rest =>
        let m := readItems fuel (depth - 1) rest
        (.array (depth == 0) m.members m.ending, m.rest)
    | '\x7b' :: rest =>
      match skipSpaces rest with
      | '\x7d' :: after => (.object (depth == 0) [] none, some after)
      | [] => (.object (depth == 0) [] (some .truncated), none)
      | rest =>
        let m := readEntries fuel (depth - 1) rest
        (.object (depth == 0) m.members m.ending, m.rest)
    | 'n' :: rest => readWord .null ['u', 'l', 'l'] rest
    | 't' :: rest => readWord (.bool true) ['r', 'u', 'e'] rest
    | 'f' :: rest => readWord (.bool false) ['a', 'l', 's', 'e'] rest
    | c :: rest =>
      if c = '-' ∨ c.isDigit then
        match scanNumeral (c :: rest) with
        | .ok (numeral, after) =>
          match numeral.value with
          | some n => (.number n, some after)
          | none => (.flawed .inner, some after)
        | .error fault => (.flawed ⟨fault, some .malformed, .malformed⟩, none)
      else (.flawed (.stop .malformed), none)

/-- The items of an array, the first of them at the start of the text. -/
def readItems (fuel depth : Nat) (cs : List Char) : Members Reading :=
  match fuel with
  | 0 => ⟨[], some .truncated, none⟩
  | fuel + 1 =>
    match readValue fuel depth cs with
    | (item, none) => ⟨[item], none, none⟩
    | (item, some rest) =>
      match skipSpaces rest with
      | ',' :: rest => (readItems fuel depth rest).cons item
      | ']' :: rest => ⟨[item], none, some rest⟩
      | rest => ⟨[item], some (separatorFault rest), none⟩

/-- The entries of an object, the first key at the start of the text. -/
def readEntries (fuel depth : Nat) (cs : List Char) : Members (Except Flaw String × Reading) :=
  match fuel with
  | 0 => ⟨[], some .truncated, none⟩
  | fuel + 1 =>
    match skipSpaces cs with
    | '"' :: rest =>
      match readString rest with
      | (key, none) => ⟨[(key, .null)], none, none⟩
      | (key, some rest) =>
        match skipSpaces rest with
        | ':' :: rest =>
          match readValue fuel depth rest with
          | (value, none) => ⟨[(key, value)], none, none⟩
          | (value, some rest) =>
            match skipSpaces rest with
            | ',' :: rest => (readEntries fuel depth rest).cons (key, value)
            | '\x7d' :: rest => ⟨[(key, value)], none, some rest⟩
            | rest => ⟨[(key, value)], some (separatorFault rest), none⟩
        | rest => ⟨[(key, .flawed (.stop (separatorFault rest)))], none, none⟩
    | rest =>
      let fault := separatorFault rest
      let named := (readValue fuel depth rest).1.unexpected
      ⟨[(.error ⟨fault, some fault, named⟩, .null)], none, none⟩

end

/-- A text as a decoder meets it. -/
structure Document where
  root : Reading
  /-- The text behind the root value; none when a flaw stopped the reader. -/
  rest : Option (List Char)

/-- Reads a text. -/
def Document.ofText (s : String) : Document :=
  let cs := s.toList
  let (root, rest) := readValue (2 * cs.length + 2) depthLimit cs
  ⟨root, rest⟩

/-- Nothing but spaces follows the root value. -/
def Document.isClosed (d : Document) : Bool :=
  match d.rest with
  | some rest => (skipSpaces rest).isEmpty
  | none => true

end Questionnaire.Json
