import MarkupTemplate.Directive.Arguments
import MarkupTemplate.Import.Uri
import MarkupTemplate.Markup.Document
import MarkupTemplate.Resource.Provider

/-!
# The imports of a template

Imports are found by listing attributes, without a tree. The closure of a template holds each template
that it imports, directly or through others, once and with its text, those imported by a template
right behind it. A cycle ends where a template is met again.
-/

namespace MarkupTemplate

/-- The attribute imports macros. -/
def ScannedAttribute.isImport (a : ScannedAttribute) : Bool :=
  a.name.name == "import" &&
    (a.name.isIn metalSpace || (a.element.isIn metalSpace && !a.rawName.toList.contains ':'))

/-- The templates that an attribute imports, with paths relative to `path` resolved. -/
def ScannedAttribute.targets (path : Option String) (a : ScannedAttribute) :
    Except TemplateFault (List String) :=
  if !a.isImport then .ok []
  else
    match unescape (a.value.getD "") with
    | .error fault => .error (.compile (.entity "import" fault) (some a.location))
    | .ok argument => .ok ((Directive.imports argument).map fun entry => resolveUri entry.path path)

/-- A text at a path, which it may do without. -/
structure TemplateSource where
  text : String
  path : Option String
  deriving DecidableEq, Repr, Inhabited

/-- The templates that a template imports itself, in order. -/
def importTargets (source : TemplateSource) : Except TemplateFault (List String) :=
  match scanAttributes source.text source.path with
  | .error fault => .error (.markup fault)
  | .ok attributes => do
    let targets ← attributes.mapM (ScannedAttribute.targets source.path)
    return targets.flatten

/-- A template that is imported, with the path by which it is asked for. -/
structure ImportedSource where
  path : String
  text : String
  deriving DecidableEq, Repr, Inhabited

/-- A resource as text, for templates. -/
def ResourceProvider.template (provider : ResourceProvider) (path : String) :
    Except TemplateFault String :=
  match provider.loadText path with
  | .ok text => .ok text
  | .error fault => .error (.resource fault)

/-- What has been met of a closure. -/
structure ImportScan where
  visited : List String
  found : List ImportedSource
  deriving Inhabited

namespace ImportScan

/-- The scan after one more target, if `follow` scans the imports of a template. -/
def visit (provider : ResourceProvider)
    (follow : TemplateSource → ImportScan → Except TemplateFault ImportScan) (scan : ImportScan)
    (target : String) : Except TemplateFault ImportScan := do
  if scan.visited.contains target then return scan
  let text ← provider.template target
  follow ⟨text, some target⟩ ⟨target :: scan.visited, scan.found ++ [⟨target, text⟩]⟩

/-- The scan after the imports of a template, through at most `depth` templates. -/
def follow (provider : ResourceProvider) :
    Nat → TemplateSource → ImportScan → Except TemplateFault ImportScan
  | 0, _, _ => .error (.config .importTooDeep)
  | depth + 1, source, scan => do
    let targets ← importTargets source
    targets.foldlM (visit provider (follow provider depth)) scan

end ImportScan

/-- The closure of a template. -/
def importClosure (provider : ResourceProvider) (source : TemplateSource) :
    Except TemplateFault (List ImportedSource) := do
  let scan ← ImportScan.follow provider (maxImportDepth + 1) source ⟨source.path.toList, []⟩
  return scan.found

/-- The closure as a provider of its own. -/
def snapshot (imports : List ImportedSource) : ResourceProvider :=
  (MemoryStore.ofTexts (imports.map fun i => (i.path, i.text))).provider

end MarkupTemplate
