/-
This file looks up files in a folder whose contents are known.
-/

namespace PetriLogic.CommandLine

inductive FileFault where
  | missing
  | notFolder
  | isFolder
  | nameTooLong
  | other (reason : String)
deriving DecidableEq

def FileFault.message : FileFault → String
  | .missing => "No such file or directory (os error 2)"
  | .notFolder => "Not a directory (os error 20)"
  | .isFolder => "Is a directory (os error 21)"
  | .nameTooLong => "File name too long (os error 36)"
  | .other reason => reason

/-- The folder is given by the files in it, each with the names that lead to it. -/
structure Folder where
  files : List (List String × String)

/-- A walk starts inside the folder, and nothing is known of what is outside. -/
inductive Location where
  | inside (names : List String)
  | outside

def Location.parent : Location → Location
  | .inside [] => .outside
  | .inside names => .inside names.dropLast
  | .outside => .outside

namespace Folder

def ofFiles (files : List (String × String)) : Folder :=
  ⟨files.map fun (path, content) => (path.splitOn "/", content)⟩

def content? (folder : Folder) (names : List String) : Option String :=
  (folder.files.find? (·.1 = names)).map Prod.snd

/-- A folder is there if some file lies in it. -/
def hasFolder (folder : Folder) (names : List String) : Bool :=
  folder.files.any fun file => names.isPrefixOf file.1

def longestName : Nat := 255

def longestPath : Nat := 4095

def walk (folder : Folder) (location : Location) : List String → Except FileFault String
  | [] => .error .isFolder
  | name :: rest =>
      if name = "" ∨ name = "." then folder.walk location rest
      else if name = ".." then folder.walk location.parent rest
      else if longestName < name.utf8ByteSize then .error .nameTooLong
      else
        match location with
        | .outside => .error .missing
        | .inside names =>
            match folder.content? (names ++ [name]) with
            | some content => if rest.isEmpty then .ok content else .error .notFolder
            | none =>
                if folder.hasFolder (names ++ [name]) then
                  folder.walk (.inside (names ++ [name])) rest
                else .error .missing

/-- A path with a slash in front starts outside. -/
def read (folder : Folder) (path : String) : Except FileFault String :=
  if longestPath < path.utf8ByteSize then .error .nameTooLong
  else folder.walk (if path.front? = some '/' then .outside else .inside []) (path.splitOn "/")

end Folder

end PetriLogic.CommandLine
