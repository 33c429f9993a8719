import Questionnaire.CommandLine.Run

/-
  The command line on the real file system.
-/

namespace Questionnaire.CommandLine

/-- Whether colours are written: as the environment says, else when a terminal reads along. -/
def wantsColours (force noColour colour : Option String) (terminal : Bool) : Bool :=
  if force.any (· ≠ "0") then true
  else if noColour.isSome then false
  else colour.all (· ≠ "0") && terminal

/-- The fault of making a folder. -/
def faultOf : IO.Error → FolderFault
  | .alreadyExists .. => .occupied
  | .noFileOrDirectory .. => .missing
  | .inappropriateType .. => .notAFolder
  | e => .other (toString e)

/-- The machine that the tool runs on. -/
def machine : Host IO where
  read path := return (← (IO.FS.readFile path).toBaseIO).toOption
  isThere path := do
    match ← (IO.FS.readFile path).toBaseIO with
    | .error (.noFileOrDirectory ..) => return false
    | _ => return true
  makeFolder path := do
    match ← (IO.FS.createDirAll path).toBaseIO with
    | .ok () => return none
    | .error e => return some (faultOf e)
  write path text := return (← (IO.FS.writeFile path text).toBaseIO).toOption.isSome

end Questionnaire.CommandLine

open Questionnaire Questionnaire.CommandLine

/-- Runs the tool and prints what it leaves behind. -/
def main (args : List String) : IO UInt32 := do
  let stdout ← IO.getStdout
  let coloured := wantsColours (← IO.getEnv "CLICOLOR_FORCE") (← IO.getEnv "NO_COLOR")
    (← IO.getEnv "CLICOLOR") (← stdout.isTty)
  let outcome ← run machine coloured args
  stdout.putStr outcome.output
  for w in outcome.warnings do
    IO.eprintln ("[WARN] " ++ w.message)
  for line in outcome.remarks do
    IO.eprintln line
  return outcome.status
