/-
  The arguments of the command line.

  A line is read from left to right and the first thing that is wrong, or that asks for the
  version or for help, decides. Options may stand anywhere, those for all commands also in front
  of the command's name. A value follows its option as the next argument, behind an equals sign
  or, for a single letter, without a gap; letters of options without values may be joined. After
  `--` everything is a word.
-/

namespace Questionnaire.CommandLine

/-- Why reading the arguments stops. -/
inductive Stop
  | misuse
  | version
  | help
deriving DecidableEq, Repr

/-! ## Options -/

/-- What an option takes. -/
inductive ValueKind
  | none
  /-- A path, which is not empty. -/
  | path
  | text
deriving DecidableEq, Repr

/-- An option by its names. -/
structure OptionName where
  long : String
  letter : Option Char
  value : ValueKind
deriving DecidableEq, Repr

/-- An option that was given, with its value. -/
structure Given where
  long : String
  value : String
deriving DecidableEq, Repr

/-- The value given for an option. -/
def valueOf? (given : List Given) (long : String) : Option String :=
  (given.find? (·.long = long)).map (·.value)

/-- Whether an option was given. -/
def isGiven (given : List Given) (long : String) : Bool := (valueOf? given long).isSome

/-- The option for all commands that names a settings file. -/
def configOption : OptionName := ⟨"config", some 'c', .path⟩

/-- The option for all commands that asks for detail. -/
def verboseOption : OptionName := ⟨"verbose", some 'v', .none⟩

/-- The option that asks for help. -/
def helpOption : OptionName := ⟨"help", some 'h', .none⟩

/-- The option that asks for the version. -/
def versionOption : OptionName := ⟨"version", some 'V', .none⟩

/-- The option that names a language. -/
def languageOption : OptionName := ⟨"lang", some 'l', .text⟩

/-- The option that names an output file. -/
def outputOption : OptionName := ⟨"output", some 'o', .path⟩

/-- The option that makes cycles fail. -/
def strictOption : OptionName := ⟨"strict", none, .none⟩

/-- The options that every command has. -/
def sharedOptions : List OptionName := [verboseOption, configOption, helpOption]

/-! ## Reading options -/

/-- The options given, with one more. An option may be given once, and a path must not be empty;
help and version stop the reading. -/
def give (given : List Given) (o : OptionName) (value : String) : Except Stop (List Given) :=
  if o = helpOption then .error .help
  else if o = versionOption then .error .version
  else if isGiven given o.long then .error .misuse
  else if o.value = .path && value = "" then .error .misuse
  else .ok (given ++ [⟨o.long, value⟩])

/-- Whether an argument is an option and not a word: more than a single dash. -/
def isOption (arg : String) : Bool :=
  match arg.toList with
  | '-' :: _ :: _ => true
  | _ => false

/-- The options given by joined letters, and the option that still waits for its value. -/
def giveLetters (names : List OptionName) (given : List Given) :
    List Char → Except Stop (List Given × Option OptionName)
  | [] => .ok (given, none)
  | c :: cs =>
    match names.find? (·.letter = some c) with
    | none => .error .misuse
    | some o =>
      if o.value = .none then do giveLetters names (← give given o "") cs
      else match cs with
        | [] => .ok (given, some o)
        | '=' :: value => do return (← give given o (String.ofList value), none)
        | value => do return (← give given o (String.ofList value), none)

/-- The options given by a long name, which may carry a value. -/
def giveLong (names : List OptionName) (given : List Given) (cs : List Char) :
    Except Stop (List Given × Option OptionName) :=
  match names.find? (·.long.toList = cs.takeWhile (· ≠ '=')) with
  | none => .error .misuse
  | some o =>
    match o.value, cs.dropWhile (· ≠ '=') with
    | .none, [] => do return (← give given o "", none)
    | .none, _ :: _ => .error .misuse
    | _, [] => .ok (given, some o)
    | _, _ :: value => do return (← give given o (String.ofList value), none)

/-- The options given by one argument. -/
def giveArgument (names : List OptionName) (given : List Given) (arg : String) :
    Except Stop (List Given × Option OptionName) :=
  match arg.toList with
  | '-' :: '-' :: cs => giveLong names given cs
  | _ :: cs => giveLetters names given cs
  | [] => .error .misuse

/-- What was read of a line. -/
structure Progress where
  given : List Given := []
  words : List String := []
  /-- Whether `--` was met. -/
  escaped : Bool := false
deriving DecidableEq, Repr

/-- Reads options and up to `limit` words, none of them empty; gives the arguments behind the last
word as well. -/
def readArguments (names : List OptionName) :
    (limit : Nat) → Progress → List String → Except Stop (Progress × List String)
  | 0, p, args => .ok (p, args)
  | _ + 1, p, [] => .ok (p, [])
  | limit + 1, p, arg :: args =>
    if arg = "--" then
      let words := args.take (limit + 1)
      if words.contains "" then .error .misuse
      else .ok ({ p with words := p.words ++ words, escaped := true }, args.drop (limit + 1))
    else if isOption arg then do
      match ← giveArgument names p.given arg, args with
      | (given, none), args => readArguments names (limit + 1) { p with given } args
      | (_, some _), [] => .error .misuse
      | (given, some o), value :: args =>
        if isOption value then .error .misuse
        else readArguments names (limit + 1) { p with given := ← give given o value } args
    else if arg = "" then .error .misuse
    else readArguments names limit { p with words := p.words ++ [arg] } args
termination_by limit _ args => (limit, args.length)

/-! ## Commands -/

/-- What the tool is asked to do. -/
inductive Command
  | compile (package : String) (output : Option String) (strict : Bool)
  | inspect (package : String) (language : Option String)
  | check (package answers : String) (language : Option String)
  | questions (package answers : String) (language output : Option String)
  | configSchema
deriving DecidableEq, Repr

/-- A command with the settings file that was named for it. -/
structure Request where
  config : Option String
  verbose : Bool
  command : Command
deriving DecidableEq, Repr

/-- A command's name with its own options and the number of its words. -/
structure CommandForm where
  name : String
  options : List OptionName
  words : Nat
  build : List String → List Given → Option Command

/-- All commands. -/
def commandForms : List CommandForm := [
  ⟨"compile", [outputOption, strictOption], 1, fun words given =>
    match words with
    | [package] => some (.compile package (valueOf? given "output") (isGiven given "strict"))
    | _ => none⟩,
  ⟨"inspect", [languageOption], 1, fun words given =>
    match words with
    | [package] => some (.inspect package (valueOf? given "lang"))
    | _ => none⟩,
  ⟨"check", [languageOption], 2, fun words given =>
    match words with
    | [package, answers] => some (.check package answers (valueOf? given "lang"))
    | _ => none⟩,
  ⟨"questions", [languageOption, outputOption], 2, fun words given =>
    match words with
    | [package, answers] =>
      some (.questions package answers (valueOf? given "lang") (valueOf? given "output"))
    | _ => none⟩,
  ⟨"config-schema", [], 0, fun words _ => if words.isEmpty then some .configSchema else none⟩]

/-- The request of a command's arguments, given the options in front of its name. What stands
behind the name comes first. -/
def CommandForm.request (form : CommandForm) (outer : List Given) (args : List String) :
    Except Stop Request := do
  let (p, rest) ← readArguments (form.options ++ sharedOptions) (form.words + 1) {} args
  if !rest.isEmpty then throw .misuse
  match form.build p.words p.given with
  | some command => return {
      config := (valueOf? p.given "config").or (valueOf? outer "config")
      verbose := isGiven p.given "verbose" || isGiven outer "verbose"
      command }
  | none => throw .misuse

/-- The command that asks for help on all commands or on one. -/
def helpCommand (args : List String) : Except Stop Request :=
  match args with
  | [] => .error .help
  | [name] =>
    if name = "help" || commandForms.any (·.name = name) then .error .help else .error .misuse
  | _ => .error .misuse

/-- The request of a line of arguments. -/
def Request.ofArguments (args : List String) : Except Stop Request := do
  let (p, rest) ← readArguments (sharedOptions ++ [versionOption]) 1 {} args
  if p.escaped then throw .misuse
  match p.words with
  | [name] =>
    if name = "help" then helpCommand rest
    else match commandForms.find? (·.name = name) with
      | some form => form.request p.given rest
      | none => throw .misuse
  | _ => throw .misuse

end Questionnaire.CommandLine
