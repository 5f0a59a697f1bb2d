import PassPipeline.Machine
import PassPipeline.Text.Split

/-! Files and folders below a working folder. -/
namespace PassPipeline

/-- What keeps a file from being read or written. -/
inductive FileError where
  | notFound
  | isFolder
  | notFolder
  | nameTooLong
  deriving DecidableEq, Repr

def FileError.message : FileError → String
  | .notFound => "no such file or directory"
  | .isFolder => "is a directory"
  | .notFolder => "not a directory"
  | .nameTooLong => "file name too long"

/-- Files with their text, and the folders that need not hold any. -/
structure FileTree where
  files : List (Path × String) := []
  folders : List Path := []
  deriving DecidableEq, Repr

namespace FileTree

def file? (t : FileTree) (p : Path) : Option String := (t.files.find? (·.1 = p)).map Prod.snd

/-- A path is a folder if it is one of them or on the way to something. -/
def isFolder (t : FileTree) (p : Path) : Bool :=
  p = [] || t.folders.any p.isPrefixOf || t.files.any fun f => f.1 ≠ p && p.isPrefixOf f.1

def exists? (t : FileTree) (p : Path) : Bool := (t.file? p).isSome || t.isFolder p

/-- Replaces the text of a file, or adds the file. -/
def write (t : FileTree) (p : Path) (text : String) : FileTree :=
  if (t.file? p).isSome then
    { t with files := t.files.map fun f => if f.1 = p then (p, text) else f }
  else { t with files := t.files ++ [(p, text)] }

/-- The text of a file. -/
def read (t : FileTree) (p : Path) : Except FileError String :=
  match t.file? p with
  | some text => .ok text
  | none => .error (if t.isFolder p then .isFolder else .notFound)

/-- No name is longer than 255 bytes, and no path longer than 4095. -/
def nameLimit : Nat := 255

def pathLimit : Nat := 4095

/-- Where a path leads: below the working folder, or elsewhere by its path from the root. -/
inductive Place where
  | inside (p : Path)
  | outside (p : Path)
  deriving DecidableEq, Repr

namespace Place

def child (name : String) : Place → Place
  | .inside p => .inside (p ++ [name])
  | .outside p => .outside (p ++ [name])

/-- The folder around a place. The root is around itself. -/
def parent : Place → Place
  | .inside [] => .outside Machine.home
  | .inside p => .inside p.dropLast
  | .outside p => .outside p.dropLast

/-- The device at a place. -/
def device? : Place → Option Device
  | .inside _ => none
  | .outside p => Machine.device? p

end Place

def isFolderAt (t : FileTree) : Place → Bool
  | .inside p => t.isFolder p
  | .outside p => Machine.isFolder p

def isFileAt (t : FileTree) : Place → Bool
  | .inside p => (t.file? p).isSome
  | .outside p => (Machine.device? p).isSome

/-- Follows names from a folder; each has to lead to a folder. -/
def follow (t : FileTree) (here : Place) : List String → Except FileError Place
  | [] => .ok here
  | name :: rest =>
    if name = "." then t.follow here rest
    else if name = ".." then t.follow here.parent rest
    else if nameLimit < name.utf8ByteSize then .error .nameTooLong
    else
      let next := here.child name
      if t.isFolderAt next then t.follow next rest
      else .error (if t.isFileAt next then .notFolder else .notFound)

/-- Where a file can be created in a folder under a name. -/
def placeIn (t : FileTree) (folder : Place) (name : String) : Except FileError Place :=
  if name = "." || name = ".." then .error .isFolder
  else if nameLimit < name.utf8ByteSize then .error .nameTooLong
  else if t.isFolderAt (folder.child name) then .error .isFolder
  else .ok (folder.child name)

/-- Where a file can be created under a path as it is written. A path that begins with a slash leads
from the root; one that ends in a slash means a folder. -/
def place (t : FileTree) (path : String) : Except FileError Place :=
  let names := (Text.splitString '/' path).filter (· ≠ "")
  let start := if path.toList.head? = some '/' then Place.outside [] else .inside []
  if path = "" then .error .notFound
  else if pathLimit < path.utf8ByteSize then .error .nameTooLong
  else match t.follow start names.dropLast with
    | .error e => .error e
    | .ok folder =>
      match names.getLast? with
      | none => .error .isFolder
      | some last =>
        if path.toList.getLast? = some '/' then .error .isFolder else t.placeIn folder last

/-- Writes to a place. What is written outside the working folder is not kept. -/
def writeAt (t : FileTree) (place : Place) (text : String) : FileTree :=
  match place with
  | .inside p => t.write p text
  | .outside _ => t

end FileTree

end PassPipeline
