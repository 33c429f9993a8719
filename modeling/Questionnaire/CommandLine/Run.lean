import Questionnaire.CommandLine.Arguments
import Questionnaire.CommandLine.Host
import Questionnaire.Package.Decode
import Questionnaire.Report.Outline
import Questionnaire.Report.Verdict
import Questionnaire.Settings
import Questionnaire.Step.Serial
import Questionnaire.Submission.Document

/-
  Running a command.

  Settings are loaded first, then the package, then the answers, and the first failure ends the
  command. A circle among the steps is only warned about, unless a strict compilation was asked
  for. A document goes to the output, or to a file whose folders are made.
-/

namespace Questionnaire.CommandLine

variable {m : Type → Type} [Monad m]

/-- What a run leaves behind. -/
structure Outcome where
  status : UInt32 := 0
  output : String := ""
  /-- The lines for the error stream. -/
  remarks : List String := []
  warnings : List Warning := []

/-- Steps of a command, each of which may fail. -/
abbrev Attempt (m : Type → Type) (α : Type) := ExceptT Failure m α

/-! ## Loading -/

/-- The settings file that is used when none is named. -/
def defaultConfig : String := ".ocatool.toml"

/-- The text of a document. -/
def readDocument (host : Host m) (document : Document) (path : String) : Attempt m String := do
  match ← host.read path with
  | some text => pure text
  | none => throw (.unreadable document path)

/-- The settings of a file. -/
def loadSettingsFile (host : Host m) (path : String) : Attempt m Settings := do
  match Settings.ofText? (← readDocument host .config path) with
  | some settings => pure settings
  | none => throw (.malformed .config path)

/-- The settings: of the named file, else of the default one if it is there. -/
def loadSettings (host : Host m) (path : Option String) : Attempt m Settings := do
  match path with
  | some path => loadSettingsFile host path
  | none =>
    if ← host.isThere defaultConfig then loadSettingsFile host defaultConfig else pure {}

/-- A package with the form compiled from it. -/
structure Loaded where
  package : Package
  form : Form

/-- The package of a file. -/
def loadPackage (host : Host m) (path : String) : Attempt m (Json.Decoded Package) := do
  let decoded := Package.decoder.fromText (← readDocument host .package path)
  match decoded.outcome with
  | .ok _ => pure decoded
  | .error _ => throw (.malformed .package path)

/-- The warnings of reading a package and compiling it. -/
def loadWarnings (decoded : Json.Decoded Package) : List Warning :=
  decoded.notices.map .decoding ++
    match decoded.outcome with
    | .ok p => Form.compileWarnings p
    | .error _ => []

/-- The form of a package that was read. A form without steps is of no use. -/
def compileLoaded (path : String) (decoded : Json.Decoded Package) : Except Failure Loaded :=
  match decoded.outcome with
  | .ok package =>
    let form := Form.compile package
    if form.steps.isEmpty then .error (.emptyForm path) else .ok { package, form }
  | .error _ => .error (.malformed .package path)

/-- The answers of a file. -/
def loadAnswers (host : Host m) (path : String) : Attempt m FormData := do
  let text ← readDocument host .answers path
  match (FormData.decoder.fromText text).outcome with
  | .ok data => pure data
  | .error _ => throw (.malformed .answers path)

/-! ## Output -/

/-- The names that a relative path is made of. A dot counts only at the start. -/
def relativeNames (names : List (List Char)) : List (List Char) :=
  match names with
  | first :: rest => first :: rest.filter (· ≠ ['.'])
  | [] => []

/-- The folder of a path: empty for a single name, none for the root and the empty path. -/
def folderOf? (path : String) : Option String :=
  let names := (Text.splitChars '/' path.toList).filter (!·.isEmpty)
  let joined (names : List (List Char)) := ['/'].intercalate names.dropLast
  if path.toList.head? = some '/' then
    let names := names.filter (· ≠ ['.'])
    if names.isEmpty then none else some (String.ofList ('/' :: joined names))
  else if names.isEmpty then none
  else some (String.ofList (joined (relativeNames names)))

/-- Writes a document to a file, in a folder that is made if needed. -/
def writeFile (host : Host m) (path text : String) : Attempt m Unit := do
  match (folderOf? path).filter (· ≠ "") with
  | some folder =>
    match ← host.makeFolder folder with
    | some fault => throw (.folder fault)
    | none => pure ()
  | none => pure ()
  if ← host.write path text then pure () else throw (.unwritable path)

/-- Puts a document out: to a file, which is reported, or as it is. -/
def putOut (host : Host m) (coloured : Bool) (settings : Settings) (document : Json)
    (output : Option String) : Attempt m String := do
  let text := document.toText settings.layout ++ "\n"
  match output with
  | none => pure text
  | some path =>
    writeFile host path text
    pure (Text.paint coloured { bold := true, colour := some .purple } ("wrote " ++ path) ++ "\n")

/-! ## Commands -/

/-- The remark on a circle among the steps. -/
def cycleRemark (coloured : Bool) (form : Form) : List String :=
  (form.cycle.map fun c =>
    Text.paint coloured { colour := some .yellow } ("warning: " ++ c.message)).toList

/-- The outcome of an attempt that gives output. -/
def finish (o : Outcome) (result : Except Failure String) : Outcome :=
  match result with
  | .ok output => { o with output }
  | .error e => { o with status := 1, remarks := o.remarks ++ ["Error: " ++ e.message] }

/-- The language of a command: the one asked for, else that of the settings. -/
def languageOf (settings : Settings) (asked : Option String) : String :=
  asked.getD settings.language

/-- The report on a document of answers, and whether it makes the command fail. -/
def checkOutcome (coloured : Bool) (settings : Settings) (form : Form) (o : Outcome)
    (data : FormData) (language : String) : Outcome :=
  let invalid := form.review data language
  let o := { o with
    output := form.verdict invalid language coloured ++ "\n"
    warnings := o.warnings ++ form.reviewWarnings data }
  if settings.enforceValidation && !invalid.isEmpty then
    { o with
      status := 1
      remarks := o.remarks ++ ["Error: " ++ (Failure.invalidAnswers invalid.length).message] }
  else o

/-- The submission document of a form and answers. -/
def questionsOf (form : Form) (data : FormData) (language : String) : Except Failure Json :=
  match (Submission.mk form data language).questions? with
  | some questions => .ok (Json.ofList Question.toJson questions)
  | none => .error .endlessQuestions

/-- Compiles a form into its steps. -/
def compileSteps (host : Host m) (coloured : Bool) (settings : Settings) (form : Form)
    (output : Option String) (strict : Bool) : Attempt m String := do
  match form.cycle with
  | some cycle => if strict then throw (.cyclic cycle)
  | none => pure ()
  putOut host coloured settings (Json.ofList Step.toJson form.steps) output

/-- Builds the submission document of the answers of a file. -/
def buildQuestions (host : Host m) (coloured : Bool) (settings : Settings) (form : Form)
    (answers language : String) (output : Option String) : Attempt m String := do
  let data ← loadAnswers host answers
  let document ← (questionsOf form data language : Except Failure Json)
  putOut host coloured settings document output

/-- The path of a command's package; the settings' schema needs none. -/
def Command.package? : Command → Option String
  | .compile package _ _ => some package
  | .inspect package _ => some package
  | .check package _ _ => some package
  | .questions package _ _ _ => some package
  | .configSchema => none

/-- Carries out a command on a compiled form. -/
def carryOut (host : Host m) (coloured : Bool) (settings : Settings) (form : Form) (o : Outcome) :
    Command → m Outcome
  | .compile _ output strict =>
    return finish o (← (compileSteps host coloured settings form output strict).run)
  | .inspect _ language =>
    return { o with output := form.outline (languageOf settings language) coloured ++ "\n" }
  | .check _ answers language => do
    match ← (loadAnswers host answers).run with
    | .ok data =>
      return checkOutcome coloured settings form o data (languageOf settings language)
    | .error e => return finish o (.error e)
  | .questions _ answers language output =>
    return finish o (← (buildQuestions host coloured settings form answers
      (languageOf settings language) output).run)
  | .configSchema => return o

/-- Prints the schema of the settings. -/
def schemaOutcome (coloured : Bool) : Outcome where
  output := Settings.schema.toText Json.pretty ++ "\n"
  remarks := [Text.paint coloured { dimmed := true } ("save as " ++ defaultConfig)]

/-- Carries out a request. -/
def Request.perform (host : Host m) (coloured : Bool) (r : Request) : m Outcome := do
  match ← (loadSettings host r.config).run with
  | .error e => return finish {} (.error e)
  | .ok settings =>
    match r.command.package? with
    | none => return schemaOutcome coloured
    | some path =>
      match ← (loadPackage host path).run with
      | .error e => return finish {} (.error e)
      | .ok decoded =>
        let o : Outcome := { warnings := loadWarnings decoded }
        match compileLoaded path decoded with
        | .error e => return finish o (.error e)
        | .ok loaded =>
          let o := { o with remarks := cycleRemark coloured loaded.form }
          carryOut host coloured settings loaded.form o r.command

/-- The version of the tool. -/
def version : String := "ocatool 0.1.0"

/-- How the tool is used. -/
def usage : String := linesOf [
  "Inspect, compile and check OCA questionnaire packages",
  "",
  "Usage: ocatool [OPTIONS] <COMMAND>",
  "",
  "Commands:",
  "  compile        Compile a package into ordered steps",
  "  inspect        Print an outline of the compiled form",
  "  check          Validate an answers document",
  "  questions      Build the submission questions document",
  "  config-schema  Print the JSON schema of the configuration file",
  "  help           Print this message or the help of the given subcommand(s)",
  "",
  "Options:",
  "  -v, --verbose        Show debug logs",
  "  -c, --config <PATH>  Configuration file (default: .ocatool.toml)",
  "  -h, --help           Print help",
  "  -V, --version        Print version"]
where
  /-- Lines with a line break behind each. -/
  linesOf (lines : List String) : String := String.join (lines.map (· ++ "\n"))

/-- Runs the tool with its arguments. -/
def run (host : Host m) (coloured : Bool) (args : List String) : m Outcome :=
  match Request.ofArguments args with
  | .ok request => request.perform host coloured
  | .error .version => return { output := version ++ "\n" }
  | .error .help => return { output := usage }
  | .error .misuse => return { status := 2 }

end Questionnaire.CommandLine
