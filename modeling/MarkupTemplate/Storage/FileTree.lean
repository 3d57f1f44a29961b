import MarkupTemplate.Resource.Provider
import MarkupTemplate.Text.Split

/-!
# File trees

A file system as a value: directories and files by their places, and a working directory from which
relative paths start. A path is walked part by part, so every part but the last has to be a directory.
A path that no file can have, for its length or for a NUL in it, leads nowhere; a name that is too long
is found only once the walk gets there.
-/

namespace MarkupTemplate

/-- The names that lead from the top to a file or directory. -/
abbrev Place := List String

/-- What can be at a place. -/
inductive FileEntry where
  | file (octets : Octets)
  | directory
  deriving DecidableEq, Repr, Inhabited

/-- Files and directories, and the place where relative paths start. -/
structure FileTree where
  entries : List (Place × FileEntry)
  working : Place
  deriving Repr, Inhabited

/-- Why a path leads nowhere. -/
inductive PathProblem where
  | missing
  /-- The path goes on behind a file. -/
  | notDirectory
  /-- No file can have such a path, or such a name in it. -/
  | badName
  deriving DecidableEq, Repr

namespace FileTree

/-- A file tree that holds nothing. -/
def empty : FileTree := ⟨[], []⟩

/-- What is at a place; the top is a directory. -/
def entry? (tree : FileTree) (place : Place) : Option FileEntry :=
  if place.isEmpty then some .directory else tree.entries.lookup place

/-- There is a directory at a place. -/
def isDirectoryAt (tree : FileTree) (place : Place) : Bool :=
  tree.entry? place == some .directory

/-- A path that files can have: at most 4095 octets, none of them NUL. -/
def isPath (path : String) : Bool :=
  path.utf8ByteSize < 4096 && !path.toList.contains (Char.ofNat 0)

/-- A name that files can have, as far as its length goes. -/
def isFileName (name : String) : Bool :=
  name.utf8ByteSize ≤ 255

/-- One part of a path, from a place. -/
def walk (tree : FileTree) (place : Place) (name : String) : Except PathProblem Place :=
  if !tree.isDirectoryAt place then .error .notDirectory
  else if name = "" ∨ name = "." then .ok place
  else if name = ".." then .ok place.dropLast
  else if !isFileName name then .error .badName
  else if (tree.entry? (place ++ [name])).isSome then .ok (place ++ [name])
  else .error .missing

/-- The names in a path. -/
def names (path : String) : List String :=
  (Text.splitAll '/' path.toList).map String.ofList

/-- A path that starts in a directory; nothing comes between them if the directory ends in a slash or is
empty. -/
def join (directory path : String) : String :=
  if directory = "" ∨ directory.toList.getLast? = some '/' then directory ++ path
  else directory ++ "/" ++ path

/-- The place where a path starts. -/
def origin (tree : FileTree) (path : String) : Place :=
  if path.toList.head? == some '/' then [] else tree.working

/-- Where the walk along a path ends, however long it is. -/
def walkPath (tree : FileTree) (path : String) : Except PathProblem Place :=
  if path = "" then .error .missing else (names path).foldlM tree.walk (tree.origin path)

/-- The place that a path leads to. -/
def place (tree : FileTree) (path : String) : Except PathProblem Place :=
  if isPath path then tree.walkPath path else .error .badName

/-- A path leads to a directory. -/
def isDirectory (tree : FileTree) (path : String) : Bool :=
  match tree.place path with
  | .ok place => tree.isDirectoryAt place
  | .error _ => false

/-- The octets of the file at a place. -/
def file? (tree : FileTree) (place : Place) : Option Octets :=
  match tree.entry? place with
  | some (.file octets) => some octets
  | _ => none

/-- The octets of the file that a path leads to. -/
def read? (tree : FileTree) (path : String) : Option Octets :=
  match tree.place path with
  | .ok place => tree.file? place
  | .error _ => none

/-- The files right inside a directory, with their names. -/
def filesIn (tree : FileTree) (directory : Place) : List (String × Octets) :=
  tree.entries.filterMap fun entry =>
    match entry with
    | (place, .file octets) =>
      match place.getLast? with
      | some name => if place.dropLast = directory then some (name, octets) else none
      | none => none
    | (_, .directory) => none

/-- The tree without what is at a place. -/
def remove (tree : FileTree) (place : Place) : FileTree :=
  { tree with entries := tree.entries.filter fun entry => entry.1 != place }

/-- The tree with a file at a place. -/
def put (tree : FileTree) (place : Place) (octets : Octets) : FileTree :=
  { tree with entries := (tree.remove place).entries ++ [(place, .file octets)] }

/-- One part of a path, from a place; a directory is made where nothing is. -/
def makeStep (state : FileTree × Place) (name : String) : Except PathProblem (FileTree × Place) :=
  match state.1.walk state.2 name with
  | .ok place => .ok (state.1, place)
  | .error .missing =>
    let place := state.2 ++ [name]
    .ok ({ state.1 with entries := state.1.entries ++ [(place, .directory)] }, place)
  | .error problem => .error problem

/-- Makes all directories of a path, and gives the place of the last one. -/
def makeDirectories (tree : FileTree) (path : String) : Except PathProblem (FileTree × Place) := do
  if !isPath path then .error .badName
  else
    let (tree, place) ← (names path).foldlM makeStep (tree, tree.origin path)
    if tree.isDirectoryAt place then .ok (tree, place) else .error .notDirectory

/-- Writes a file of some name into a directory, which is made if need be. -/
def writeIn (tree : FileTree) (directory name : String) (octets : Octets) :
    Except PathProblem FileTree := do
  let (tree, place) ← tree.makeDirectories directory
  if !isPath (join directory name) || !isFileName name then .error .badName
  else if tree.isDirectoryAt (place ++ [name]) then .error .notDirectory
  else .ok (tree.put (place ++ [name]) octets)

end FileTree

end MarkupTemplate
