import MarkupTemplate.Text.Utf8

/-!
# Faults of resources
-/

namespace MarkupTemplate

/-- Why a resource cannot be had. -/
inductive ResourceFault where
  | notFound (path : String)
  /-- The path would lead out of the root directory. -/
  | outsideRoot (path : String)
  /-- Something is there, but it cannot be read. -/
  | loadFailed (path : String)
  /-- The resource is no text. -/
  | notText (path : String) (fault : Text.Utf8Fault)
  deriving DecidableEq, Repr

namespace ResourceFault

/-- The fault in words. -/
def message : ResourceFault → String
  | notFound path => s!"Resource not found: {path}"
  | outsideRoot path => s!"Resource not found: {path} (outside template root)"
  | loadFailed path => s!"Failed to load resource '{path}'"
  | notText path fault => s!"Invalid resource format: {path}: {fault.message}"

/-- Another provider may have what this one does not. -/
def isMissing : ResourceFault → Bool
  | notFound _ => true
  | outsideRoot _ => true
  | loadFailed _ => false
  | notText .. => false

end ResourceFault

end MarkupTemplate
