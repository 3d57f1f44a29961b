import MarkupTemplate.Compile.Basic
import MarkupTemplate.Resource.Directory
import MarkupTemplate.Storage.Basic

/-!
# The cache of compiled templates

A template is compiled once for each key. The key is derived from the template and from the texts of
its imports, which are loaded once; a template is compiled against these texts. Before the first
look-up the programs that the storage keeps are taken over. A failed request leaves no entry.
-/

namespace MarkupTemplate

/-- Where imports come from. -/
inductive ImportSource where
  | provider (resources : ResourceProvider)
  /-- Files below a directory. -/
  | root (path : String)

/-- The provider of imports in a file tree. -/
def ImportSource.resolve (source : ImportSource) (tree : FileTree) : ResourceProvider :=
  match source with
  | provider resources => resources
  | root path => tree.provider path

/-- No imports at all. -/
def ImportSource.none : ImportSource := .provider (MemoryStore.provider [])

/-- How a cache is set up. -/
structure CacheConfig where
  mode : TemplateMode
  imports : ImportSource
  /-- Function libraries for every template. -/
  dependencies : Fields Unit
  storage : Storage

/-- A template that is compiled and ready to render. -/
structure CompiledTemplate where
  compiled : CompiledProgram
  template : Template
  deriving Inhabited

/-- A template that is asked for. -/
structure TemplateRequest where
  text : String
  filename : Option String
  requirements : Requirements
  /-- Texts of imports by path, which go before all others. -/
  imports : List (String × String)
  deriving Inhabited

/-- A cache: how it is set up, the templates by their keys, whether it has taken over what the storage
keeps, and how many programs have been made ready to render, or refused. -/
structure Cache where
  config : CacheConfig
  entries : Fields CompiledTemplate
  recovered : Bool
  prepared : Nat

namespace CacheConfig

/-- The provider that answers a request. -/
def resources (config : CacheConfig) (tree : FileTree) (request : TemplateRequest) :
    ResourceProvider :=
  let shared := config.imports.resolve tree
  if request.imports.isEmpty then shared
  else .layered [(MemoryStore.ofTexts request.imports).provider, shared]

/-- What a request is to be run with. -/
def requirements (config : CacheConfig) (request : TemplateRequest) : Requirements :=
  { request.requirements with
    dependencies := CompiledProgram.nameSet
      (config.dependencies.names ++ request.requirements.dependencies.names) }

/-- The imports of a request with their texts; a template read as text has none. -/
def importsOf (config : CacheConfig) (tree : FileTree) (request : TemplateRequest) :
    Except TemplateFault (List ImportedSource) :=
  match config.mode with
  | .text => .ok []
  | .markup => importClosure (config.resources tree request) ⟨request.text, request.filename⟩

/-- The key of a request whose imports are these. -/
def keyWith (config : CacheConfig) (request : TemplateRequest) (imports : List ImportedSource) :
    TemplateKey :=
  let requirements := config.requirements request
  .derive {
    template := request.text
    mode := config.mode
    filename := request.filename
    imports := imports.map ImportedSource.text
    globalTypes := requirements.globalTypes
    dependencies := requirements.dependencies }

/-- The key of a request. -/
def keyFor (config : CacheConfig) (tree : FileTree) (request : TemplateRequest) :
    Except TemplateFault TemplateKey :=
  config.keyWith request <$> config.importsOf tree request

/-- The program of a request whose imports are these. -/
def compileWith (config : CacheConfig) (request : TemplateRequest) (imports : List ImportedSource) :
    Except TemplateFault CompiledProgram := do
  let source : TemplateSource := ⟨request.text, request.filename⟩
  let program ← Program.compile (snapshot imports) config.mode source
  return ⟨config.keyWith request imports, program, generatorVersion, config.requirements request⟩

end CacheConfig

namespace Cache

/-- A cache that holds nothing. -/
def empty (config : CacheConfig) : Cache := ⟨config, [], false, 0⟩

/-- The key is held. -/
def contains (cache : Cache) (key : TemplateKey) : Bool :=
  cache.entries.has key.text

/-- The cache after a program was made ready to render, or refused. -/
def accept (cache : Cache) (compiled : CompiledProgram) :
    Except TemplateFault CompiledTemplate × Cache :=
  let cache := { cache with prepared := cache.prepared + 1 }
  match compiled.program.accept compiled.requirements with
  | .error fault => (.error fault, cache)
  | .ok template =>
    let entry : CompiledTemplate := ⟨compiled, template⟩
    (.ok entry, { cache with entries := cache.entries.insert compiled.key.text entry })

/-- The cache with the programs that the storage keeps; those that are refused are left out. -/
def ensureRecovered (cache : Cache) (tree : FileTree) : Cache :=
  if cache.recovered then cache
  else
    (cache.config.storage.recover tree).foldl (fun cache compiled => (cache.accept compiled).2)
      { cache with recovered := true }

/-- A compiled template for a request: the one that is held, or a new one, which is then held and
kept. -/
def compile (cache : Cache) (tree : FileTree) (request : TemplateRequest) :
    Except TemplateFault CompiledTemplate × Cache × FileTree :=
  match cache.config.importsOf tree request with
  | .error fault => (.error fault, cache, tree)
  | .ok imports =>
    let cache := cache.ensureRecovered tree
    match cache.entries.get? (cache.config.keyWith request imports).text with
    | some entry => (.ok entry, cache, tree)
    | none =>
      match cache.config.compileWith request imports with
      | .error fault => (.error fault, cache, tree)
      | .ok compiled =>
        match cache.accept compiled with
        | (.error fault, cache) => (.error fault, cache, tree)
        | (.ok entry, cache) => (.ok entry, cache, cache.config.storage.persist tree compiled)

/-- The request with every global variable declared. -/
def declareGlobals (request : TemplateRequest) (globals : Frame) : TemplateRequest :=
  let declared := globals.names.foldl (fun types name =>
    if Fields.has types name then types else Fields.insert name "any" types)
    request.requirements.globalTypes
  { request with requirements := { request.requirements with globalTypes := declared } }

/-- The text of a value where nothing else is asked for. -/
def plainText : ValueFormatter := Value.text

/-- The text of a requested template. -/
def render (cache : Cache) (tree : FileTree) (request : TemplateRequest) (globals : Frame) :
    Except TemplateFault String × Cache × FileTree :=
  match cache.compile tree (declareGlobals request globals) with
  | (.error fault, cache, tree) => (.error fault, cache, tree)
  | (.ok entry, cache, tree) =>
    match entry.template.render plainText globals with
    | .ok text => (.ok text, cache, tree)
    | .error fault => (.error (.render fault), cache, tree)

end Cache

end MarkupTemplate
