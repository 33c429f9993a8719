import Questionnaire.CommandLine.Run
import Questionnaire.SortedMap

/-
  A folder held in memory, as a machine for the tool.

  A place is named by the names on the way to it from the folder. Every name but the last must be
  that of a folder; a dot stays where it is and two dots go back. What lies around the folder is
  empty, but its folders are there.
-/

namespace Questionnaire.CommandLine

/-- The names on the way to a place. -/
abbrev Place := List String

/-- The text that names a place. -/
def placeKey (p : Place) : String := String.intercalate "/" p

/-- Files with their texts, and folders, by place. -/
structure Folder where
  files : SortedMap String := ∅
  folders : SortedMap Unit := ∅

namespace Folder

/-- Whether a place lies on the way from the folder to the root. -/
def isAround (p : Place) : Bool := p.all (· = "..") || p = ["/"]

/-- The text of the file at a place. -/
def fileAt? (d : Folder) (p : Place) : Option String := d.files.get? (placeKey p)

/-- Whether there is a folder at a place. -/
def hasFolder (d : Folder) (p : Place) : Bool := isAround p || d.folders.contains (placeKey p)

/-- The place of a name in a folder. -/
def step (p : Place) (name : String) : Place :=
  if name = "/" then ["/"]
  else if name = "." then p
  else if name = ".." then
    if p = ["/"] then p
    else if p.getLastD ".." = ".." then p ++ [".."]
    else p.dropLast
  else p ++ [name]

/-- The place that names lead to. -/
def follow (d : Folder) : Place → List String → Except FolderFault Place
  | p, [] => .ok p
  | p, name :: names =>
    if d.hasFolder p then d.follow (step p name) names
    else if (d.fileAt? p).isSome then .error .notAFolder
    else .error .missing

/-- The names of a path; a separator at the end asks for a folder. -/
def namesOf (path : String) : List String :=
  let cs := path.toList
  let names := ((Text.splitChars '/' cs).filter (!·.isEmpty)).map String.ofList
  let names := if cs.head? = some '/' then "/" :: names else names
  if cs.getLast? = some '/' then names ++ ["."] else names

/-- The place of a path, if the way to it is there. -/
def place? (d : Folder) (path : String) : Option Place :=
  if path = "" then none else (d.follow [] (namesOf path)).toOption

/-- The text of the file of a path. -/
def read? (d : Folder) (path : String) : Option String := (d.place? path).bind d.fileAt?

/-- Whether a path leads to a file or a folder. -/
def isThere (d : Folder) (path : String) : Bool :=
  (d.place? path).any fun p => d.hasFolder p || (d.fileAt? p).isSome

/-- The folder with a file written; none when that is not possible. -/
def write? (d : Folder) (path text : String) : Option Folder := do
  let p ← d.place? path
  if d.hasFolder p then none
  return { d with files := d.files.insert (placeKey p) text }

/-! ## Making folders -/

/-- The folder with one more folder in it. -/
def make (d : Folder) (names : List String) : Except FolderFault Folder := do
  let p ← d.follow [] names
  if d.hasFolder p || (d.fileAt? p).isSome then throw .occupied
  return { d with folders := d.folders.insert (placeKey p) () }

/-- The outcome of making a folder, which may be there already. -/
def settle (d : Folder) (names : List String) : Folder × Option FolderFault :=
  match d.make names with
  | .ok d => (d, none)
  | .error fault =>
    match d.follow [] names with
    | .ok p => (d, if d.hasFolder p then none else some fault)
    | .error _ => (d, some fault)

/-- Makes a folder and up to `n` around it. -/
def makeAround (d : Folder) : Nat → List String → Folder × Option FolderFault
  | _, [] => (d, none)
  | 0, names => d.settle names
  | n + 1, names =>
    match d.settle names with
    | (_, some .missing) =>
      match d.makeAround n names.dropLast with
      | (d, none) => d.settle names
      | failed => failed
    | settled => settled

/-- Makes the folder of a path and those around it. -/
def makeAll (d : Folder) (path : String) : Folder × Option FolderFault :=
  let names := namesOf path
  d.makeAround names.length names

/-- The folder that holds some files, given by their paths. -/
def ofFiles (files : List (String × String)) : Folder :=
  files.foldl (fun d (path, text) =>
    let d := (d.makeAll ((folderOf? path).getD "")).1
    (d.write? path text).getD d) {}

/-- The folder as a machine. -/
def host : Host (StateM Folder) where
  read path := return (← get).read? path
  isThere path := return (← get).isThere path
  makeFolder path := modifyGet fun d => ((d.makeAll path).2, (d.makeAll path).1)
  write path text := modifyGet fun d =>
    match d.write? path text with
    | some d => (true, d)
    | none => (false, d)

end Folder
end Questionnaire.CommandLine
