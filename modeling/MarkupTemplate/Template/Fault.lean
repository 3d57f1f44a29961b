import MarkupTemplate.Compile.Fault
import MarkupTemplate.Markup.Fault
import MarkupTemplate.Render.Fault
import MarkupTemplate.Resource.Fault
import MarkupTemplate.Storage.Pattern

/-!
# Faults of templates

Everything that can keep a template from being compiled and rendered.
-/

namespace MarkupTemplate

/-- What is wrong with how a cache is set up or used. -/
inductive ConfigProblem where
  | importTooDeep
  /-- Imports are to come from a provider and from a directory. -/
  | twoSources
  | noDirectory (path : String)
  | pattern (text : String) (problem : PatternProblem)
  deriving DecidableEq, Repr

/-- The problem in words. -/
def ConfigProblem.message : ConfigProblem → String
  | importTooDeep => s!"maximum import depth ({maxImportDepth}) exceeded"
  | twoSources => "Both a resource provider and a template root were configured. Use one."
  | noDirectory path => s!"Template root '{path}' is not a directory"
  | pattern text problem => s!"Invalid cache file pattern '{text}': {problem.message}"

/-- Why a template cannot be compiled or rendered. -/
inductive TemplateFault where
  | markup (fault : MarkupFault)
  | macros (problem : MacroProblem) (location : Location)
  | compile (problem : CompileProblem) (location : Option Location)
  | render (fault : RenderFault)
  | resource (fault : ResourceFault)
  | config (problem : ConfigProblem)
  deriving DecidableEq, Repr

/-- The fault in words. -/
def TemplateFault.message : TemplateFault → String
  | markup fault => s!"Template parse error: {fault.message}"
  | macros problem location => s!"Macro resolution error at {location.describe}: {problem.message}"
  | compile problem location =>
    "Compile error" ++ RenderFault.place location ++ ": " ++ problem.message
  | render fault => s!"Render error: {fault.message}"
  | resource fault => s!"Resource error: {fault.message}"
  | config problem => s!"Invalid configuration: {problem.message}"

/-- A result, or what is wrong with the directive at a place. -/
def CompileProblem.located {α : Type} (location : Location) :
    Except CompileProblem α → Except TemplateFault α
  | .ok a => .ok a
  | .error problem => .error (.compile problem (some location))

end MarkupTemplate
