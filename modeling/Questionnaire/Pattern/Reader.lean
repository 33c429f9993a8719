import Questionnaire.Pattern.Expr

/-
  Reading patterns.

  A pattern is read from left to right with the flags that hold at each place. It is refused as a
  whole when any part of it is: an unclosed group or bracket, a repetition of nothing, an unknown
  escape, flag or property, look-around, a reference to a group, or a part that could match half
  a character when Unicode is switched off. Groups do nothing but group, and greed does not
  matter, since a pattern is only asked whether it matches.
-/

namespace Questionnaire.Pattern

/-- The switches that hold at a place of a pattern. -/
structure Flags where
  ignoreCase : Bool := false
  multiLine : Bool := false
  dotAll : Bool := false
  crlf : Bool := false
  unicode : Bool := true
  /-- Blanks and comments between the parts of the pattern do not count. -/
  verbose : Bool := false
deriving DecidableEq, Repr

/-- A part of a pattern, with the number of constructs inside one another. -/
structure Part where
  expr : Expr
  depth : Nat

/-- How many constructs may stand inside one another. -/
def nestLimit : Nat := 250

/-! ## Blanks and comments -/

/-- The text behind blanks and comments; `comment` inside a comment. -/
def skipComments (comment : Bool) : List Char → List Char
  | [] => []
  | c :: cs =>
    if comment then skipComments (c ≠ '\n') cs
    else if Text.isBlank c then skipComments false cs
    else if c = '#' then skipComments true cs
    else c :: cs

/-- The text at the next part of the pattern. -/
def Flags.skip (f : Flags) (cs : List Char) : List Char :=
  if f.verbose then skipComments false cs else cs

/-- The next character that is not blank, seen from inside a bracket: a comment's mark is passed
over, not its text. -/
def Flags.glance? (f : Flags) (cs : List Char) : Option Char :=
  if f.verbose then
    match cs.dropWhile Text.isBlank with
    | '#' :: rest => (rest.dropWhile Text.isBlank).head?
    | cs => cs.head?
  else cs.head?

/-! ## Escapes -/

/-- What a single part of a pattern can be, in a bracket or outside. -/
inductive Atom
  /-- A character; `byte` when it was given by two hexadecimal digits. -/
  | literal (c : Char) (byte : Bool)
  | set (s : CharSet)
  | look (l : Look)

/-- A set with the variants of its members added when case does not count. -/
def Flags.fold (f : Flags) (s : CharSet) : CharSet :=
  if f.ignoreCase then (if f.unicode then s.folded else s.asciiFolded) else s

/-- A set that is fit for matching: without Unicode it has to be ASCII. -/
def Flags.admit (f : Flags) (s : CharSet) : Option CharSet :=
  if f.unicode || s.isAscii then some s else none

/-- The value of a hexadecimal digit. -/
def hexValue? (c : Char) : Option Nat :=
  let l := c.toLower
  if c.isDigit then some (c.toNat - '0'.toNat)
  else if 'a'.toNat ≤ l.toNat && l.toNat ≤ 'f'.toNat then some (l.toNat - 'a'.toNat + 10)
  else none

/-- The character of hexadecimal digits, if there is one. -/
def scalar? (digits : List Nat) : Option Char :=
  let n := digits.foldl (fun n d => n * 16 + d) 0
  if digits.isEmpty || n > 0x10FFFF || (0xD800 ≤ n && n ≤ 0xDFFF) then none
  else some (Char.ofNat n)

/-- A fixed number of hexadecimal digits. -/
def readHexDigits (f : Flags) : Nat → List Char → Option (List Nat × List Char)
  | 0, cs => some ([], cs)
  | _ + 1, [] => none
  | n + 1, c :: cs => do
    let d ← hexValue? c
    let (ds, rest) ← readHexDigits f n (f.skip cs)
    return (d :: ds, rest)

/-- Hexadecimal digits up to a closing brace, on fuel. -/
def readBracedDigits (f : Flags) : Nat → List Char → Option (List Nat × List Char)
  | 0, _ => none
  | fuel + 1, cs =>
    match f.skip cs with
    | [] => none
    | '\x7d' :: rest => some ([], rest)
    | c :: rest => do
      let d ← hexValue? c
      let (ds, rest) ← readBracedDigits f fuel rest
      return (d :: ds, rest)

/-- A character given by its number, behind the letter that announces `count` digits. -/
def readHex (f : Flags) (count : Nat) (cs : List Char) : Option (Atom × List Char) :=
  match f.skip cs with
  | '\x7b' :: rest => do
    let (ds, rest) ← readBracedDigits f (rest.length + 1) rest
    return (.literal (← scalar? ds) false, f.skip rest)
  | cs => do
    let (ds, rest) ← readHexDigits f count cs
    return (.literal (← scalar? ds) (count == 2), f.skip rest)

/-- The name of a property up to its closing brace, on fuel. -/
def readPropertyName (f : Flags) : Nat → List Char → Option (List Char × List Char)
  | 0, _ => none
  | fuel + 1, cs =>
    match f.skip cs with
    | [] => none
    | '\x7d' :: rest => some ([], rest)
    | c :: rest => do
      let (name, rest) ← readPropertyName f fuel rest
      return (c :: name, rest)

/-- A text split at the first occurrence of a separator. -/
def splitAt? (separator : List Char) : List Char → Option (List Char × List Char)
  | [] => none
  | c :: cs =>
    match Text.afterLeading separator (c :: cs) with
    | some rest => some ([], rest)
    | none => (splitAt? separator cs).map fun r => (c :: r.1, r.2)

/-- The characters of a property written in braces, and whether the property is denied. -/
def property? (name : List Char) : Option (CharSet × Bool) :=
  let value (parts : List Char × List Char) :=
    CharSet.ofValue? (CharSet.plainName parts.1) (CharSet.plainName parts.2)
  match splitAt? ['!', '='] name with
  | some parts => (value parts).map (·, true)
  | none =>
    match (splitAt? [':'] name).or (splitAt? ['='] name) with
    | some parts => (value parts).map (·, false)
    | none => (CharSet.ofName? (CharSet.plainName name)).map (·, false)

/-- A property, behind its letter. -/
def readProperty (f : Flags) (negated : Bool) (cs : List Char) : Option (Atom × List Char) := do
  guard f.unicode
  let ((s, denied), rest) ← match f.skip cs with
    | [] => none
    | '\x7b' :: rest => do
      let (name, rest) ← readPropertyName f (rest.length + 1) rest
      pure (← property? name, rest)
    | c :: rest => do
      guard (c ≠ '\\')
      pure ((← CharSet.ofName? (CharSet.plainName [c]), false), f.skip rest)
  return (.set ((f.fold s).negateIf (negated != denied)), rest)

/-- The digits, blanks or word characters, or the others. -/
def shorthand? (f : Flags) (c : Char) : Option (Option CharSet) :=
  let pick (unicode ascii : CharSet) (negated : Bool) : Option CharSet :=
    f.admit ((if f.unicode then unicode else ascii).negateIf negated)
  if c = 'd' ∨ c = 'D' then some (pick .digits .asciiDigits (c == 'D'))
  else if c = 's' ∨ c = 'S' then some (pick .blanks .asciiBlanks (c == 'S'))
  else if c = 'w' ∨ c = 'W' then some (pick .wordChars .asciiWordChars (c == 'W'))
  else none

/-- The letters of a word boundary's name, on fuel. -/
def readBoundaryName (f : Flags) : Nat → List Char → List Char × List Char
  | 0, cs => ([], cs)
  | fuel + 1, cs =>
    match cs with
    | c :: rest =>
      if c.isAlpha || c = '-' then
        let (name, rest) := readBoundaryName f fuel (f.skip rest)
        (c :: name, rest)
      else ([], cs)
    | [] => ([], [])

/-- A word boundary, behind its letter. In braces it may be named; braces around anything else
belong to a repetition. -/
def readBoundary (f : Flags) (cs : List Char) : Option (Atom × List Char) :=
  let atom (edge : WordEdge) : Atom := .look (.word f.unicode edge)
  match cs with
  | '\x7b' :: inner =>
    match f.skip inner with
    | [] => none
    | c :: rest =>
      if c.isAlpha || c = '-' then
        match readBoundaryName f (rest.length + 2) (c :: rest) with
        | (name, '\x7d' :: rest) =>
          ([("start", WordEdge.start), ("end", .stop), ("start-half", .startHalf),
            ("end-half", .stopHalf)].lookup (String.ofList name)).map fun edge => (atom edge, rest)
        | _ => none
      else some (atom .boundary, cs)
  | cs => some (atom .boundary, cs)

/-- Whether a character stands for itself behind a backslash. -/
def isEscapable (c : Char) : Bool :=
  c.toNat < 0x80 && !c.isAlphanum && c ≠ '<' && c ≠ '>'

/-- The characters that single letters stand for. -/
def letterEscapes : List (Char × Char) :=
  [('a', '\x07'), ('f', '\x0c'), ('t', '\t'), ('n', '\n'), ('r', '\r'), ('v', '\x0b')]

/-- An escape, behind its backslash. -/
def readEscape (f : Flags) (cs : List Char) : Option (Atom × List Char) :=
  match cs with
  | [] => none
  | c :: rest =>
    match shorthand? f c with
    | some s => s.map fun s => (.set s, rest)
    | none =>
      if c = 'x' then readHex f 2 rest
      else if c = 'u' then readHex f 4 rest
      else if c = 'U' then readHex f 8 rest
      else if c = 'p' ∨ c = 'P' then readProperty f (c == 'P') rest
      else if isEscapable c then some (.literal c false, rest)
      else if c = 'A' then some (.look .textStart, rest)
      else if c = 'z' then some (.look .textEnd, rest)
      else if c = 'b' then readBoundary f rest
      else if c = 'B' then some (.look (.word f.unicode .inside), rest)
      else if c = '<' then some (.look (.word f.unicode .start), rest)
      else if c = '>' then some (.look (.word f.unicode .stop), rest)
      else (letterEscapes.lookup c).map fun e => (.literal e false, rest)

/-! ## Brackets -/

/-- How two sets in a bracket are joined. -/
inductive SetOperation
  | inter
  | diff
  | symmDiff

/-- The set of an operation. -/
def SetOperation.apply : SetOperation → CharSet → CharSet → CharSet
  | .inter => .inter
  | .diff => .diff
  | .symmDiff => .symmDiff

/-- A set in a bracket, with the number of brackets and operations inside one another. -/
structure SetPart where
  set : CharSet
  depth : Nat

/-- What was read of a bracket: its members since the last operation, and that operation with its
left side. -/
structure Bracket where
  negated : Bool
  members : List SetPart := []
  pending : Option (SetOperation × SetPart) := none

/-- The depth of members that stand side by side. -/
def groupDepth (depths : List Nat) : Nat :=
  match depths with
  | [] => 0
  | [d] => d
  | ds => ds.foldl max 0 + 1

/-- The bracket with one more member. -/
def Bracket.push (b : Bracket) (s : SetPart) : Bracket := { b with members := b.members ++ [s] }

/-- What stands in the bracket so far, as one set. -/
def Bracket.current (f : Flags) (b : Bracket) : SetPart :=
  let right : SetPart :=
    ⟨.unions (b.members.map (·.set)), groupDepth (b.members.map (·.depth))⟩
  match b.pending with
  | none => right
  | some (operation, left) =>
    ⟨operation.apply (f.fold left.set) (f.fold right.set), max left.depth right.depth + 1⟩

/-- The bracket with an operation on what stands in it so far. -/
def Bracket.operate (f : Flags) (b : Bracket) (operation : SetOperation) : Bracket :=
  { b with members := [], pending := some (operation, b.current f) }

/-- The set of a closed bracket. -/
def Bracket.close (f : Flags) (b : Bracket) : Option SetPart := do
  let inside := b.current f
  let s ← f.admit ((f.fold inside.set).negateIf b.negated)
  return ⟨s, inside.depth + 1⟩

/-- A character that may stand in a set. -/
def Flags.member (f : Flags) (c : Char) : Option Char :=
  if f.unicode || c.toNat < 0x80 then some c else none

/-- Dashes at the start of a bracket stand for themselves. -/
def leadingDashes (f : Flags) : Nat → Bracket → List Char → Bracket × List Char
  | 0, b, cs => (b, cs)
  | fuel + 1, b, cs =>
    match cs with
    | '-' :: rest => leadingDashes f fuel (b.push ⟨.single '-', 0⟩) (f.skip rest)
    | cs => (b, cs)

/-- The start of a bracket, behind its opening sign. A bracket that would be empty holds the
closing sign. -/
def openBracket (f : Flags) (cs : List Char) : Bracket × List Char :=
  let (negated, cs) := match f.skip cs with
    | '^' :: rest => (true, f.skip rest)
    | cs => (false, cs)
  let (b, cs) := leadingDashes f cs.length { negated } cs
  match cs with
  | ']' :: rest => if b.members.isEmpty then (b.push ⟨.single ']', 0⟩, f.skip rest) else (b, cs)
  | cs => (b, cs)

/-- A class such as `[:alpha:]`, behind its opening bracket. -/
def readNamedClass (f : Flags) (cs : List Char) : Option (SetPart × List Char) := do
  let rest ← Text.afterLeading [':'] cs
  let (negated, rest) := match rest with
    | '^' :: rest => (true, rest)
    | rest => (false, rest)
  let (name, rest) := (rest.takeWhile (· ≠ ':'), rest.dropWhile (· ≠ ':'))
  let rest ← Text.afterLeading [':', ']'] rest
  let s ← CharSet.asciiClasses.lookup (String.ofList name)
  return (⟨(f.fold s).negateIf negated, 0⟩, rest)

/-- A single member of a bracket. -/
def readMember (f : Flags) (cs : List Char) : Option (Atom × List Char) :=
  match cs with
  | [] => none
  | '\\' :: rest => readEscape f rest
  | c :: rest => some (.literal c false, rest)

/-- A member of a bracket, or a range of them. -/
def readRange (f : Flags) (cs : List Char) : Option (SetPart × List Char) := do
  let (first, rest) ← readMember f cs
  let alone : Option SetPart := match first with
    | .literal c _ => (f.member c).map fun c => ⟨.single c, 0⟩
    | .set s => some ⟨s, 0⟩
    | .look _ => none
  match f.skip rest with
  | [] => none
  | '-' :: after =>
    if f.glance? after = some ']' || f.glance? after = some '-' then
      return (← alone, '-' :: after)
    else
      let (last, rest) ← readMember f (f.skip after)
      match first, last with
      | .literal low _, .literal high _ =>
        guard (low ≤ high)
        return (⟨.range (← f.member low) (← f.member high), 0⟩, rest)
      | _, _ => none
  | rest => return (← alone, rest)

/-- The rest of a bracket, on fuel, with the brackets around it, innermost first. -/
def readBracket (f : Flags) :
    Nat → Bracket → List Bracket → List Char → Option (SetPart × List Char)
  | 0, _, _, _ => none
  | fuel + 1, b, outer, cs =>
    match f.skip cs with
    | [] => none
    | '[' :: rest =>
      match readNamedClass f rest with
      | some (s, rest) => do
        let _ ← f.admit s.set
        readBracket f fuel (b.push s) outer rest
      | none =>
        let (inner, rest) := openBracket f rest
        readBracket f fuel inner (b :: outer) rest
    | ']' :: rest => do
      let s ← b.close f
      match outer with
      | [] => return (s, rest)
      | b :: outer => readBracket f fuel (b.push s) outer rest
    | '&' :: '&' :: rest => readBracket f fuel (b.operate f .inter) outer rest
    | '-' :: '-' :: rest => readBracket f fuel (b.operate f .diff) outer rest
    | '~' :: '~' :: rest => readBracket f fuel (b.operate f .symmDiff) outer rest
    | cs => do
      let (s, rest) ← readRange f cs
      readBracket f fuel (b.push s) outer rest

/-! ## Groups and flags -/

/-- A place in a pattern. -/
structure Cursor where
  rest : List Char
  flags : Flags := {}
  /-- The names of the groups opened so far. -/
  names : List String := []

/-- What stands at the head of a group. -/
inductive GroupHead
  /-- Flags for the rest of the group around it. -/
  | directive (flags : Flags)
  /-- A group with flags of its own, and its name. -/
  | opening (flags : Flags) (name : Option String)

/-- The flags with one of them switched; none for an unknown letter. -/
def Flags.switch (f : Flags) (c : Char) (on : Bool) : Option Flags :=
  if c = 'i' then some { f with ignoreCase := on }
  else if c = 'm' then some { f with multiLine := on }
  else if c = 's' then some { f with dotAll := on }
  else if c = 'R' then some { f with crlf := on }
  else if c = 'u' then some { f with unicode := on }
  else if c = 'x' then some { f with verbose := on }
  else if c = 'U' then some f
  else none

/-- Flags up to the sign that ends them, with the letters and dashes met so far. -/
def readFlags (f : Flags) (met : List Char) : List Char → Option (Flags × List Char × List Char)
  | [] => none
  | c :: rest =>
    if c = ':' ∨ c = ')' then
      if met.head? = some '-' then none else some (f, met, c :: rest)
    else if met.contains c then none
    else if c = '-' then readFlags f ('-' :: met) rest
    else
      match f.switch c (!met.contains '-') with
      | some f => readFlags f (c :: met) rest
      | none => none

/-- Whether a character may stand in the name of a group. -/
def isNameChar (first : Bool) (c : Char) : Bool :=
  c = '_' || Ranges.holds alphabeticRanges c.toNat ||
    (!first && (c = '.' || c = '[' || c = ']' || (CharSet.ofCategories ["nd", "nl", "no"]).holds c))

/-- The name of a group up to the sign that closes it. -/
def readGroupName (cs : List Char) : Option (String × List Char) :=
  let name := cs.takeWhile (· ≠ '>')
  match name, cs.dropWhile (· ≠ '>') with
  | c :: more, _ :: rest =>
    if isNameChar true c && more.all (isNameChar false) then some (String.ofList name, rest)
    else none
  | _, _ => none

/-- The head of a group, behind its opening parenthesis. -/
def readGroupHead (f : Flags) (cs : List Char) : Option (GroupHead × List Char) :=
  match f.skip cs with
  | '?' :: '=' :: _ => none
  | '?' :: '!' :: _ => none
  | '?' :: '<' :: '=' :: _ => none
  | '?' :: '<' :: '!' :: _ => none
  | '?' :: 'P' :: '<' :: rest => (readGroupName rest).map fun r => (.opening f (some r.1), r.2)
  | '?' :: '<' :: rest => (readGroupName rest).map fun r => (.opening f (some r.1), r.2)
  | '?' :: rest =>
    match readFlags f [] rest with
    | some (f, _, ':' :: rest) => some (.opening f none, rest)
    | some (f, met, _ :: rest) => if met.isEmpty then none else some (.directive f, rest)
    | _ => none
  | rest => some (.opening f none, rest)

/-! ## Repetitions -/

/-- A decimal numeral with the blanks around it; empty without digits. -/
def readDecimal (f : Flags) (cs : List Char) : List Char × List Char :=
  let (digits, rest) := digitsOf (cs.length + 1) (cs.dropWhile Text.isBlank)
  (digits, f.skip (rest.dropWhile Text.isBlank))
where
  /-- The digits at the start of a text, on fuel. -/
  digitsOf : Nat → List Char → List Char × List Char
    | 0, cs => ([], cs)
    | fuel + 1, cs =>
      match cs with
      | c :: rest =>
        if c.isDigit then
          let (digits, rest) := digitsOf fuel (f.skip rest)
          (c :: digits, rest)
        else ([], cs)
      | [] => ([], [])

/-- The number of a numeral of at most 32 bits. -/
def count? (digits : List Char) : Option Nat :=
  let n := digits.foldl (fun n c => n * 10 + (c.toNat - '0'.toNat)) 0
  if digits.isEmpty || n ≥ UInt32.size then none else some n

/-- The text behind a question mark that only changes greed. -/
def skipGreed (cs : List Char) : List Char :=
  match cs with
  | '?' :: rest => rest
  | cs => cs

/-- The numbers of a counted repetition, behind its opening brace. -/
def readCounts (f : Flags) (cs : List Char) : Option ((Nat × Option Nat) × List Char) := do
  let (low, rest) := readDecimal f (f.skip cs)
  let low ← count? low
  let (high, rest) ← match rest with
    | ',' :: rest =>
      match f.skip rest with
      | '\x7d' :: rest => some (none, '\x7d' :: rest)
      | rest => do
        let (high, rest) := readDecimal f rest
        pure (some (← count? high), rest)
    | rest => some (some low, rest)
  match rest with
  | '\x7d' :: rest =>
    guard (high.all (low ≤ ·))
    return ((low, high), skipGreed (f.skip rest))
  | _ => none

/-- The bounds of the repetition at the start of a text, and the text behind it. -/
def readRepetition (f : Flags) (cs : List Char) : Option ((Nat × Option Nat) × List Char) :=
  match cs with
  | '?' :: rest => some ((0, some 1), skipGreed rest)
  | '*' :: rest => some ((0, none), skipGreed rest)
  | '+' :: rest => some ((1, none), skipGreed rest)
  | '\x7b' :: rest => readCounts f rest
  | _ => none

/-! ## Patterns -/

/-- The pattern of a literal character. -/
def literalExpr (f : Flags) (c : Char) (byte : Bool) : Option Expr :=
  if !f.unicode && byte && 0x80 ≤ c.toNat then none
  else some (.chars (f.fold (.single c)))

/-- The pattern of an atom. -/
def atomExpr (f : Flags) : Atom → Option Expr
  | .literal c byte => literalExpr f c byte
  | .set s => some (.chars s)
  | .look l => some (.look l)

/-- The pattern of the dot. -/
def dotExpr (f : Flags) : Option Expr :=
  if !f.unicode then none
  else if f.dotAll then some (.chars .all)
  else if f.crlf then some (.chars (CharSet.union (.single '\r') (.single '\n')).complement)
  else some (.chars (CharSet.single '\n').complement)

/-- The pattern of a part that is neither a group nor a repetition. -/
def readPrimitive (f : Flags) (cs : List Char) : Option (Part × List Char) :=
  match cs with
  | [] => none
  | '[' :: rest => do
    let (b, rest) := openBracket f rest
    let (s, rest) ← readBracket f (rest.length + 1) b [] rest
    return (⟨.chars s.set, s.depth⟩, rest)
  | '\\' :: rest => do
    let (atom, rest) ← readEscape f rest
    return (⟨← atomExpr f atom, 0⟩, rest)
  | '.' :: rest => do return (⟨← dotExpr f, 0⟩, rest)
  | '^' :: rest => some (⟨.look (if f.multiLine then .lineStart f.crlf else .textStart), 0⟩, rest)
  | '$' :: rest => some (⟨.look (if f.multiLine then .lineEnd f.crlf else .textEnd), 0⟩, rest)
  | c :: rest => do return (⟨← literalExpr f c false, 0⟩, rest)

/-- Parts in a row; `none` stands for flags. -/
def sequence (parts : List (Option Part)) : Part :=
  let found := parts.filterMap id
  ⟨match found with
    | [] => .empty
    | p :: ps => ps.foldl (fun e p => .seq e p.expr) p.expr,
    groupDepth (parts.map fun p => (p.map (·.depth)).getD 0)⟩

/-- Parts to choose from. -/
def choice (branches : List Part) : Part :=
  ⟨match branches with
    | [] => .empty
    | p :: ps => ps.foldl (fun e p => .alt e p.expr) p.expr,
    groupDepth (branches.map (·.depth))⟩

/-- The parts with a repetition of the last one; none when there is nothing to repeat. -/
def repeatLast (parts : List (Option Part)) (low : Nat) (high : Option Nat) :
    Option (List (Option Part)) :=
  match parts.getLast? with
  | some (some p) => some (parts.dropLast ++ [some ⟨.rep p.expr low high, p.depth + 1⟩])
  | _ => none

/-- The pattern up to the parenthesis that closes it or to the end, on fuel, behind some branches
and some parts of the current branch. -/
def readPattern : Nat → List Part → List (Option Part) → Cursor → Option (Part × Cursor)
  | 0, _, _, _ => none
  | fuel + 1, branches, parts, cursor =>
    let f := cursor.flags
    match f.skip cursor.rest with
    | [] => some (choice (branches ++ [sequence parts]), { cursor with rest := [] })
    | ')' :: rest =>
      some (choice (branches ++ [sequence parts]), { cursor with rest := ')' :: rest })
    | '|' :: rest => readPattern fuel (branches ++ [sequence parts]) [] { cursor with rest }
    | '(' :: rest =>
      match readGroupHead f rest with
      | none => none
      | some (.directive flags, rest) =>
        readPattern fuel branches (parts ++ [none]) { cursor with rest, flags }
      | some (.opening flags name, rest) =>
        if name.any cursor.names.contains then none
        else
          match readPattern fuel [] [] { rest, flags, names := name.toList ++ cursor.names } with
          | some (inner, { rest := ')' :: rest, names, .. }) =>
            readPattern fuel branches (parts ++ [some ⟨inner.expr, inner.depth + 1⟩])
              { rest, flags := f, names }
          | _ => none
    | rest =>
      if rest.head?.any ['?', '*', '+', '\x7b'].contains then
        match readRepetition f rest with
        | some ((low, high), rest) =>
          match repeatLast parts low high with
          | some parts => readPattern fuel branches parts { cursor with rest }
          | none => none
        | none => none
      else
        match readPrimitive f rest with
        | some (p, rest) => readPattern fuel branches (parts ++ [some p]) { cursor with rest }
        | none => none

/-- The pattern of a text, if it is one. -/
def Expr.ofText? (s : String) : Option Expr :=
  let cs := s.toList
  match readPattern (cs.length + 1) [] [] { rest := cs } with
  | some (p, { rest := [], .. }) =>
    if p.depth ≤ nestLimit && p.expr.states ≤ stateLimit then some p.expr else none
  | _ => none

end Questionnaire.Pattern
