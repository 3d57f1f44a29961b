import MarkupTemplate.Storage.FileTree

/-!
# Resources in a directory

Paths name files below a root directory; leading slashes do not matter. A path with a double point is
refused, so no path leads out of the root. A path is walked before it is opened, so a file is found by
a path of any length; only the empty root cannot be walked to, and there a path is opened as it is.
-/

namespace MarkupTemplate

namespace FileTree

/-- The path of a resource below the root, unless it would lead out. -/
def belowRoot? (root path : String) : Option String :=
  let relative := withoutLeadingSlashes path
  if (names relative).contains ".." then none else some (join root relative)

/-- The place that the path of a resource leads to. -/
def placeBelow (tree : FileTree) (root full : String) : Except PathProblem Place :=
  if root = "" then tree.place full else tree.walkPath full

/-- The octets of the resource under a path. -/
def loadBelow (tree : FileTree) (root path : String) : Except ResourceFault Octets :=
  match belowRoot? root path with
  | none => .error (.outsideRoot path)
  | some full =>
    match tree.placeBelow root full with
    | .ok place =>
      match tree.file? place with
      | some octets => .ok octets
      | none => .error (.loadFailed path)
    | .error .missing => .error (if isPath full then .notFound path else .loadFailed path)
    | .error _ => .error (.loadFailed path)

/-- The files below a root directory as resources. -/
def provider (tree : FileTree) (root : String) : ResourceProvider where
  name := "FilesystemResourceProvider"
  load path := tree.loadBelow root path
  has path := (tree.loadBelow root path).toOption.isSome

end FileTree

end MarkupTemplate
