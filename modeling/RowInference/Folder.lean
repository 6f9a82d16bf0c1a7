/-! # Folders of text files

A folder is a finite collection of text files under their paths. Runs of the program are functions of the folder
they are started in. A path is followed step by step from there: a step leads into a folder that holds files, stays
where it is, or goes back up, but never leads through a file.
-/

namespace RowInference

/-- The text files of a folder with their paths. -/
structure Folder where
  files : List (String × String) := []

namespace Folder

/-- The steps of a path that lead somewhere. -/
def names (path : String) : List String :=
  (path.splitOn "/").filter fun step => step != "" && step != "."

def hasFolder (folder : Folder) (place : List String) : Bool :=
  folder.files.any fun file => place.isPrefixOf (names file.1).dropLast

/-- The folder that the steps of a path lead to, from a place on. -/
def walk? (folder : Folder) (here : List String) : List String → Option (List String)
  | [] => some here
  | step :: rest =>
    if step = "" ∨ step = "." then folder.walk? here rest
    else if step = ".." then if here.isEmpty then none else folder.walk? here.dropLast rest
    else if folder.hasFolder (here ++ [step]) then folder.walk? (here ++ [step]) rest
    else none

/-- The place of the file that a path names, in a folder that is there. Paths from the root lead elsewhere. -/
def place? (folder : Folder) (path : String) : Option (List String) :=
  let steps := path.splitOn "/"
  match steps.getLast? with
  | none => none
  | some last =>
    if path.startsWith "/" ∨ last = "" ∨ last = "." ∨ last = ".." then none
    else (folder.walk? [] steps.dropLast).map (· ++ [last])

/-- The content of a file: of the one listed under the very path, or else of the one that the path leads to. -/
def read? (folder : Folder) (path : String) : Option String :=
  match folder.files.lookup path with
  | some content => some content
  | none => do
    let place ← folder.place? path
    (folder.files.find? fun file => names file.1 == place).map Prod.snd

def contains (folder : Folder) (path : String) : Bool := (folder.read? path).isSome

/-- Write a file. The folder it goes to has to be there, and no folder can be in its place. -/
def write? (folder : Folder) (path content : String) : Option Folder := do
  let place ← folder.place? path
  if folder.hasFolder place then none
  else some ⟨(path, content) :: folder.files.filter fun file => names file.1 != place⟩

end Folder

end RowInference
