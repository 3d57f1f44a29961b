import MarkupTemplate.Cache.Basic

/-!
# Setting up a cache

What a cache may be asked to use, and what is wrong with it. Imports come from a provider or from a
directory, not from both.
-/

namespace MarkupTemplate

/-- Where compiled programs are to be kept. -/
inductive StorageSetup where
  | memory
  | files (directory pattern : String)
  deriving DecidableEq, Repr, Inhabited

/-- What a cache is to use. -/
structure CacheSetup where
  mode : TemplateMode
  provider : Option ResourceProvider
  root : Option String
  storage : StorageSetup
  dependencies : List String

namespace CacheSetup

/-- Where imports are to come from. -/
def imports (setup : CacheSetup) (tree : FileTree) : Except ConfigProblem ImportSource :=
  match setup.provider, setup.root with
  | some _, some _ => .error .twoSources
  | some resources, none => .ok (.provider resources)
  | none, some path => if tree.isDirectory path then .ok (.root path) else .error (.noDirectory path)
  | none, none => .ok .none

/-- The storage. -/
def openStorage (setup : CacheSetup) : Except ConfigProblem Storage :=
  match setup.storage with
  | .memory => .ok .memory
  | .files directory pattern => Storage.inDirectory directory pattern

/-- The configuration of a cache. -/
def config (setup : CacheSetup) (tree : FileTree) : Except ConfigProblem CacheConfig := do
  let imports ← setup.imports tree
  let storage ← setup.openStorage
  return ⟨setup.mode, imports, CompiledProgram.nameSet setup.dependencies, storage⟩

end CacheSetup

/-- The cache that is set up. -/
def Cache.setUp (setup : CacheSetup) (tree : FileTree) : Except TemplateFault Cache :=
  match setup.config tree with
  | .ok config => .ok (.empty config)
  | .error problem => .error (.config problem)

end MarkupTemplate
