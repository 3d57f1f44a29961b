import MarkupTemplate.Resource.Fault
import MarkupTemplate.Value.Fields

/-!
# Providers of resources

A provider gives the octets under a path. Resources are held in memory, or several providers are asked in
order until one of them has the path. A leading slash does not matter in memory, unless a resource is
kept under the very path.
-/

namespace MarkupTemplate

/-- The octets of a file. -/
abbrev Octets := List UInt8

/-- A source of resources. -/
structure ResourceProvider where
  name : String
  load : String → Except ResourceFault Octets
  has : String → Bool

/-- A resource as text. -/
def ResourceProvider.loadText (provider : ResourceProvider) (path : String) :
    Except ResourceFault String := do
  let octets ← provider.load path
  match Text.decodeUtf8 octets with
  | .ok text => .ok text
  | .error fault => .error (.notText path fault)

/-- The path without its leading slashes. -/
def withoutLeadingSlashes (path : String) : String :=
  String.ofList (path.toList.dropWhile (· == '/'))

/-- Resources in memory, by path. -/
abbrev MemoryStore := Fields Octets

namespace MemoryStore

/-- Texts by path; of one path the last text stays. -/
def ofTexts (texts : List (String × String)) : MemoryStore :=
  Fields.ofList (texts.map fun entry => (entry.1, Text.encodeUtf8 entry.2))

/-- The octets under a path. -/
def find? (store : MemoryStore) (path : String) : Option Octets :=
  match Fields.get? store path with
  | some octets => some octets
  | none => Fields.get? store (withoutLeadingSlashes path)

/-- The store as a provider. -/
def provider (store : MemoryStore) : ResourceProvider where
  name := "InMemoryResourceProvider"
  load path :=
    match find? store path with
    | some octets => .ok octets
    | none => .error (.notFound path)
  has path := (find? store path).isSome

end MemoryStore

namespace ResourceProvider

/-- What the first of several providers gives that does not miss the path. -/
def loadFirst (path : String) : List ResourceProvider → Except ResourceFault Octets
  | [] => .error (.notFound path)
  | layer :: layers =>
    match layer.load path with
    | .ok octets => .ok octets
    | .error fault => if fault.isMissing then loadFirst path layers else .error fault

/-- Several providers, asked in order. -/
def layered (layers : List ResourceProvider) : ResourceProvider where
  name := "LayeredResourceProvider"
  load path := loadFirst path layers
  has path := layers.any (·.has path)

end ResourceProvider

end MarkupTemplate
