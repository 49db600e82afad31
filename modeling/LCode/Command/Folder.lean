/-! Files in memory. A path is walked name by name, and a file can only be its last name. -/

namespace LCode.Command

inductive ReadError
  | notFound
  | notADirectory
  | isADirectory
  | notText
  | other (message : String)
deriving DecidableEq, Repr

def ReadError.message : ReadError → String
  | notFound => "No such file or directory (os error 2)"
  | notADirectory => "Not a directory (os error 20)"
  | isADirectory => "Is a directory (os error 21)"
  | notText => "stream did not contain valid UTF-8"
  | other message => message

def pathNames (path : String) : List String := (path.toList.splitOn '/').map String.ofList

def isProperName (name : String) : Bool := name ≠ "" && name ≠ "."

structure Folder where
  files : List (List String × ByteArray)
  folders : List (List String)

/-- Where a walk stands. Outside of the folder nothing is known but that it is a folder. -/
inductive Place
  | file (content : ByteArray)
  | folder (names : List String)
  | outside

namespace Folder

def ofPaths (files : List (String × ByteArray)) (folders : List String) : Folder where
  files := files.map fun f => ((pathNames f.1).filter isProperName, f.2)
  folders := folders.map fun path => (pathNames path).filter isProperName

def place? (f : Folder) (names : List String) : Option Place :=
  match f.files.find? (fun file => file.1 = names) with
  | some file => some (.file file.2)
  | none =>
    if (f.folders ++ f.files.map Prod.fst).any (names.isPrefixOf ·) then some (.folder names)
    else none

def step (f : Folder) (place : Place) (name : String) : Except ReadError Place :=
  match place with
  | .file _ => .error .notADirectory
  | .outside => if name = ".." ∨ !isProperName name then .ok .outside else .error .notFound
  | .folder names =>
    if !isProperName name then .ok (.folder names)
    else if name = ".." then
      if names = [] then .ok .outside else .ok (.folder names.dropLast)
    else
      match f.place? (names ++ [name]) with
      | some place => .ok place
      | none => .error .notFound

def read (f : Folder) (path : String) : Except ReadError ByteArray := do
  let start := if path.toList.head? = some '/' then Place.outside else Place.folder []
  match ← (pathNames path).foldlM f.step start with
  | .file content => .ok content
  | _ => .error .isADirectory

end Folder

end LCode.Command
