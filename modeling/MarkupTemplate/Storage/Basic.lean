import MarkupTemplate.Artifact.Compiled
import MarkupTemplate.Storage.FileTree
import MarkupTemplate.Storage.Pattern

/-!
# Storage of compiled programs

Compiled programs are kept nowhere, or one per file in a directory, under a name that the pattern makes
of the key. What is recovered goes by the key in its file name; files that do not read, and those of
another version, are passed over.
-/

namespace MarkupTemplate

/-- The usual pattern of file names. -/
def defaultPattern : String := "talc-" ++ keyPlaceholder ++ ".json"

/-- Where compiled programs are kept. -/
inductive Storage where
  | memory
  | files (directory : String) (pattern : FilePattern)
  deriving DecidableEq, Repr, Inhabited

namespace FilePattern

/-- The key in a file name of this pattern. -/
def key? (p : FilePattern) (name : String) : Option TemplateKey :=
  (p.middle? name).bind TemplateKey.parse?

/-- The program in a file, if its name holds a key and the program reads and is of this version. -/
def recover? (p : FilePattern) (file : String × Octets) : Option CompiledProgram := do
  let key ← p.key? file.1
  let stored ← CompiledProgram.decode? file.2
  if stored.generator = generatorVersion then some { stored with key } else none

end FilePattern

namespace Storage

/-- The name of a kind of storage. -/
def name : Storage → String
  | memory => "memory"
  | files .. => "filesystem"

/-- The file storage in a directory with a pattern. -/
def inDirectory (directory pattern : String) : Except ConfigProblem Storage :=
  match FilePattern.parse pattern with
  | .ok p => .ok (files directory p)
  | .error problem => .error (.pattern pattern problem)

/-- The programs that are kept. -/
def recover (storage : Storage) (tree : FileTree) : List CompiledProgram :=
  match storage with
  | memory => []
  | files directory pattern =>
    match tree.place directory with
    | .ok place => (tree.filesIn place).filterMap pattern.recover?
    | .error _ => []

/-- The files with one more program kept. What cannot be written is not kept. -/
def persist (storage : Storage) (tree : FileTree) (c : CompiledProgram) : FileTree :=
  match storage with
  | memory => tree
  | files directory pattern =>
    match tree.writeIn directory (pattern.fileName c.key.text) c.encode with
    | .ok tree => tree
    | .error _ => tree

end Storage

end MarkupTemplate
