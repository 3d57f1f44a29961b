import MarkupTemplate.CommandLine.Inputs

/-!
# The command line

Reads the files that a command asks for, runs it on them, and writes the files that it changes.
-/

open MarkupTemplate MarkupTemplate.CommandLine

/-- The tree with the file at a path, if there is one. -/
def loadFile (tree : FileTree) (path : String) : IO FileTree := do
  try
    let octets ← IO.FS.readBinFile path
    match tree.writeIn (directoryOf path) (fileName path) octets.toList with
    | .ok tree => return tree
    | .error _ => return tree
  catch _ => return tree

/-- The tree with a directory, if there is one, without what is in it. -/
def loadDirectory (tree : FileTree) (path : String) : IO FileTree := do
  if ← ((← IO.currentDir) / path).isDir then
    match tree.makeDirectories path with
    | .ok (tree, _) => return tree
    | .error _ => return tree
  else return tree

/-- The tree with a directory and the files right inside it. -/
def loadFiles (tree : FileTree) (path : String) : IO FileTree := do
  let tree ← loadDirectory tree path
  try
    let entries ← ((← IO.currentDir) / path).readDir
    entries.foldlM (fun tree entry => loadFile tree (path ++ "/" ++ entry.fileName)) tree
  catch _ => return tree

/-- The tree with all imports of a command's template. -/
partial def loadImports (tree : FileTree) (c : Command) : IO FileTree := do
  match c.nextImport? tree with
  | none => return tree
  | some path =>
    let loaded ← loadFile tree path
    if (loaded.read? path).isSome then loadImports loaded c else return tree

/-- The tree with everything that a command reads. -/
def load (tree : FileTree) (c : Command) : IO FileTree := do
  let tree ← c.files.foldlM loadFile tree
  let tree ← loadDirectory tree c.template.root
  let tree ← match c.storageDirectory? with
    | some path => loadFiles tree path
    | none => pure tree
  loadImports tree c

/-- An empty tree seen from the working directory. -/
def currentTree : IO FileTree := do
  match FileTree.empty.makeDirectories (← IO.currentDir).toString with
  | .ok (tree, working) => return { tree with working }
  | .error _ => return .empty

/-- Writes a file, and the directories above it if need be. What cannot be written is passed over. -/
def save (file : Place × Octets) : IO Unit := do
  try
    IO.FS.createDirAll ("/" ++ "/".intercalate file.1.dropLast)
    IO.FS.writeBinFile ("/" ++ "/".intercalate file.1) file.2.toByteArray
  catch _ => return ()

def main (arguments : List String) : IO UInt32 := do
  let tree ← currentTree
  let tree ← match parse arguments with
    | .ok command => load tree command
    | .error _ => pure tree
  let result := run tree arguments
  (changes tree result.tree).forM save
  let output ← IO.getStdout
  output.putStr result.output
  output.flush
  IO.eprint result.complaint
  return result.code.toUInt32
