import Questionnaire.Error

/-
  What the tool needs from the machine it runs on, and what can go wrong there.

  The machine is given by four operations, so that the tool runs on a real file system as well as
  on a folder held in memory.
-/

namespace Questionnaire.CommandLine

/-- Why a folder cannot be made. -/
inductive FolderFault
  /-- A file stands where the folder should be. -/
  | occupied
  /-- A path leads through a file. -/
  | notAFolder
  | missing
  /-- Another fault, in the words of the machine. -/
  | other (text : String)
deriving DecidableEq, Repr

/-- The wording of a fault. -/
def FolderFault.message : FolderFault → String
  | .occupied => "File exists (os error 17)"
  | .notAFolder => "Not a directory (os error 20)"
  | .missing => "No such file or directory (os error 2)"
  | .other text => text

/-- The operations of a machine. -/
structure Host (m : Type → Type) where
  /-- The text of a file, if it can be read. -/
  read : String → m (Option String)
  /-- Whether there is a file or a folder. -/
  isThere : String → m Bool
  /-- Makes a folder and those around it, unless they are there; tells what went wrong. -/
  makeFolder : String → m (Option FolderFault)
  /-- Writes a file; tells whether it was written. -/
  write : String → String → m Bool

/-! ## Errors -/

/-- The documents that the tool reads. -/
inductive Document
  | config
  | package
  | answers
deriving DecidableEq, Repr

/-- The name of a document. -/
def Document.name : Document → String
  | .config => "config"
  | .package => "package"
  | .answers => "answers"

/-- Why a command fails. -/
inductive Failure
  | unreadable (document : Document) (path : String)
  | malformed (document : Document) (path : String)
  | emptyForm (path : String)
  | cyclic (cycle : CyclicReferences)
  | folder (fault : FolderFault)
  | unwritable (path : String)
  | invalidAnswers (count : Nat)
  /-- Records own each other, so the questions have no end. -/
  | endlessQuestions
deriving DecidableEq, Repr

/-- The wording of a failure. -/
def Failure.message : Failure → String
  | .unreadable document path => "failed to read " ++ document.name ++ " " ++ path
  | .malformed .config path => "invalid config " ++ path
  | .malformed document path => "failed to parse " ++ document.name ++ " " ++ path
  | .emptyForm path => path ++ ": " ++ FormError.nothingToRender.message
  | .cyclic cycle => cycle.message
  | .folder fault => fault.message
  | .unwritable path => "failed to write " ++ path
  | .invalidAnswers count => decimal count ++ " answer(s) failed validation"
  | .endlessQuestions => "child records own each other in a cycle"

end Questionnaire.CommandLine
