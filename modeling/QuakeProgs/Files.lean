/-
  File:      QuakeProgs/Files.lean
  Subject:   FILES: access to them, paths, and a tree of files held in memory.

  * `Files` -- what programs need of a file system, in any monad;
  * `Path.parts`, `Path.fileName?`, `Path.parent`, `Path.join` -- a path taken apart and put together;
  * `FileTree` -- files and directories by path from one directory, those above it included;
  * `FileTree.locate` -- follows a path part by part, `.` and `..` included.
-/
import QuakeProgs.Bytes

namespace QuakeProgs

/-- Why a file could not be used. -/
inductive FileFault where
  | notFound | notDirectory | isDirectory | nameTooLong
  deriving DecidableEq, Inhabited

def FileFault.text : FileFault → String
  | .notFound => "No such file or directory (os error 2)"
  | .notDirectory => "Not a directory (os error 20)"
  | .isDirectory => "Is a directory (os error 21)"
  | .nameTooLong => "File name too long (os error 36)"

/-- Access to files by path. -/
structure Files (m : Type → Type) where
  /-- All bytes of a file. -/
  read : String → m (Except FileFault Bytes)
  /-- Makes a file or replaces what it held. -/
  create : String → Bytes → m (Except FileFault Unit)

/-! ## 1. Paths. -/

namespace Path

/-- A step of a path that leads nowhere else. -/
def isIdle (step : String) : Bool := step = "" || step = "."

/-- The steps of a path, idle ones included. -/
def steps (path : String) : List String := path.splitOn "/"

/-- The names in a path. -/
def parts (path : String) : List String := (steps path).filter (!isIdle ·)

def isAbsolute (path : String) : Bool := path.startsWith "/"

/-- The last name, unless the path ends by going up. -/
def fileName? (path : String) : Option String :=
  match (parts path).getLast? with
  | some ".." => none
  | other => other

/-- The directory that the last name lies in: the path up to the steps that lead there. -/
def parent (path : String) : String :=
  let above := (((steps path).reverse.dropWhile isIdle).drop 1).dropWhile isIdle
  match "/".intercalate above.reverse with
  | "" => if isAbsolute path then "/" else "."
  | dir => dir

/-- A name in a directory. -/
def join (dir name : String) : String := if dir.endsWith "/" then dir ++ name else dir ++ "/" ++ name

/-- A path that ends with a slash after a name asks for a directory of that name. -/
def asksForDirectory (path : String) : Bool :=
  path.endsWith "/" && match (steps path).reverse.dropWhile (· = "") with
    | [] => false
    | last :: _ => last ≠ "." && last ≠ ".."

/-- Names have at most 255 bytes. -/
def isLongName (name : String) : Bool := name.utf8ByteSize > 255

/-- Paths have at most 4095 bytes. -/
def isLong (path : String) : Bool := path.utf8ByteSize > 4095

/-- Whether a path can lead out of the directory it is relative to. -/
def escapes (path : String) : Bool := isAbsolute path || (parts path).contains ".."

end Path

/-! ## 2. Files in memory. -/

/-- Files seen from one directory, each under the names that lead to it. Names that go up stand in
    front. -/
structure FileTree where
  files : List (List String × Bytes) := []
  /-- The directories that were made, each before what lies in it. -/
  directories : List (List String) := []
  deriving DecidableEq, Inhabited

/-- What a path leads to. -/
inductive Place where
  | directory
  | file (path : List String) (bytes : Bytes)
  /-- A name that is free in a directory that is there. -/
  | vacant (path : List String)
  deriving DecidableEq, Inhabited

namespace FileTree

def file? (t : FileTree) (path : List String) : Option Bytes := t.files.lookup path

/-- Whether names only go up, to a directory above. -/
def isAbove (path : List String) : Bool := path.all (· = "..")

/-- A directory is there when it was made; those above always are. -/
def isDirectory (t : FileTree) (path : List String) : Bool := isAbove path || t.directories.contains path

/-- The directory that a directory lies in. -/
def up (here : List String) : List String := if isAbove here then here ++ [".."] else here.dropLast

/-- Follows steps from the directory `here` on. An idle step after a file or a free name asks for a
    directory. -/
def walk (t : FileTree) (here : List String) : List String → Except FileFault Place
  | [] => .ok .directory
  | name :: rest =>
    if Path.isIdle name then t.walk here rest
    else if name = ".." then t.walk (up here) rest
    else if Path.isLongName name then .error .nameTooLong
    else
      let path := here ++ [name]
      if t.isDirectory path then t.walk path rest
      else match t.file? path with
        | some bytes => if rest.isEmpty then .ok (.file path bytes) else .error .notDirectory
        | none => if rest.isEmpty then .ok (.vacant path) else .error .notFound

/-- Follows steps from the root on, which lies above itself. Nothing else is known there. -/
def walkFromRoot : List String → Except FileFault Place
  | [] => .ok .directory
  | name :: rest =>
    if Path.isIdle name || name = ".." then walkFromRoot rest
    else if Path.isLongName name then .error .nameTooLong
    else .error .notFound

/-- What a path leads to. -/
def locate (t : FileTree) (path : String) : Except FileFault Place :=
  if path = "" then .error .notFound
  else if Path.isLong path then .error .nameTooLong
  else if Path.isAbsolute path then walkFromRoot (Path.steps path)
  else t.walk [] (Path.steps path)

def read (t : FileTree) (path : String) : Except FileFault Bytes := do
  match ← t.locate path with
  | .directory => .error .isDirectory
  | .file _ bytes => .ok bytes
  | .vacant _ => .error .notFound

/-- Puts bytes under a path, in place of what it held. -/
def insert (t : FileTree) (path : List String) (bytes : Bytes) : FileTree :=
  { t with files := (path, bytes) :: t.files.filter (·.1 ≠ path) }

/-- Makes a directory. -/
def makeDirectory (t : FileTree) (path : List String) : FileTree :=
  if t.isDirectory path then t else { t with directories := t.directories ++ [path] }

/-- Puts a file where names lead from the directory `here`, and makes the directories on the way. -/
def place (t : FileTree) (bytes : Bytes) (here : List String) : List String → FileTree
  | [] => t
  | [name] => t.insert (here ++ [name]) bytes
  | name :: rest =>
    if name = ".." then t.place bytes (up here) rest
    else (t.makeDirectory (here ++ [name])).place bytes (here ++ [name]) rest

/-- The tree in which files were placed one after the other: of two under one path the later stays. -/
def ofList (files : List (String × Bytes)) : FileTree :=
  files.foldl (fun t (path, bytes) => t.place bytes [] (Path.parts path)) {}

/-- Makes a file. A directory cannot be made this way, also where none is yet. -/
def create (t : FileTree) (path : String) (bytes : Bytes) : Except FileFault FileTree := do
  if Path.isLong path then .error .nameTooLong
  else if Path.asksForDirectory path then
    match ← t.locate (Path.parent path) with
    | .directory => .error .isDirectory
    | .file .. => .error .notDirectory
    | .vacant _ => .error .notFound
  else
    match ← t.locate path with
    | .directory => .error .isDirectory
    | .file p _ | .vacant p => .ok (t.insert p bytes)

/-- Access to the files of a tree. -/
def access : Files (StateM FileTree) where
  read path := fun t => (t.read path, t)
  create path bytes := fun t =>
    match t.create path bytes with
    | .ok t' => (.ok (), t')
    | .error e => (.error e, t)

end FileTree

end QuakeProgs
