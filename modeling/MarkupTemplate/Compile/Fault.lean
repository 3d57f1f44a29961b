import MarkupTemplate.Expression.Parser
import MarkupTemplate.Host.Fault
import MarkupTemplate.Markup.Entity

/-!
# Faults of compilation

What is wrong with the directives of a template, and with its macros.
-/

namespace MarkupTemplate

/-- What a name in a directive is for. -/
inductive NameRole where
  | definedVariable
  | loopVariable
  | parameter
  | argument
  deriving DecidableEq, Repr

/-- The role in words. -/
def NameRole.describe : NameRole → String
  | definedVariable => "variable name in tal:define"
  | loopVariable => "loop variable in tal:repeat"
  | parameter => "parameter name in metal:define-param"
  | argument => "parameter name in metal:fill-param"

/-- What is wrong with a directive. -/
inductive CompileProblem where
  | expression (fault : ExpressionFault)
  | missingName (role : NameRole)
  | invalidName (role : NameRole) (name : String)
  | missingDefinition (name : String)
  | missingItems
  | invalidAttributeName (name : String)
  | missingAttributeValue (name : String)
  | unknownType (name : String)
  | missingArgument (name : String)
  /-- A directive's value, given by its name, holds a wrong character reference. -/
  | entity (place : String) (fault : EntityFault)
  | unknownTal (name : String)
  | unknownMetal (name : String)
  | duplicateDirective (name : String)
  | contentAndReplace
  | parameterOutsideMacro
  | unnamedSlot
  | duplicateParameter (name : String)
  | host (fault : HostFault)
  deriving DecidableEq, Repr

/-- The problem in words. -/
def CompileProblem.message : CompileProblem → String
  | expression fault => fault.message
  | missingName role => s!"missing {role.describe}"
  | invalidName role name => s!"invalid {role.describe} '{name}'"
  | missingDefinition name => s!"missing expression for '{name}' in tal:define"
  | missingItems => "missing expression in tal:repeat"
  | invalidAttributeName name => s!"invalid attribute name '{name}' in tal:attributes"
  | missingAttributeValue name => s!"missing expression for attribute '{name}'"
  | unknownType name => s!"unknown parameter type '{name}'"
  | missingArgument name => s!"missing value for parameter '{name}'"
  | entity place fault => s!"invalid entity in {place}: {fault.message}"
  | unknownTal name => s!"unknown TAL attribute '{name}'"
  | unknownMetal name => s!"unknown METAL attribute '{name}'"
  | duplicateDirective name => s!"duplicate {name} attribute"
  | contentAndReplace => "tal:content and tal:replace cannot be used on the same element"
  | parameterOutsideMacro => "metal:define-param is only allowed inside metal:define-macro"
  | unnamedSlot => "metal:define-slot requires a name"
  | duplicateParameter name => s!"duplicate parameter '{name}'"
  | host fault => fault.message

/-- What is wrong with macros and imports. -/
inductive MacroProblem where
  | unnamed
  | duplicate (name : String)
  | circularImport (path : String)
  | importTooDeep
  | unknown (name : String)
  | unknownUnder (label name : String)
  | noSuchParameter (name parameter : String)
  | unregistered
  deriving DecidableEq, Repr

/-- The number of imports that may follow each other. -/
def maxImportDepth : Nat := 100

/-- The problem in words. -/
def MacroProblem.message : MacroProblem → String
  | unnamed => "metal:define-macro requires a name"
  | duplicate name => s!"duplicate macro '{name}'"
  | circularImport path => s!"circular import of '{path}'"
  | importTooDeep => s!"maximum import depth ({maxImportDepth}) exceeded"
  | unknown name => s!"unknown macro '{name}'"
  | unknownUnder label name => s!"unknown macro '{name}' in namespace '{label}'"
  | noSuchParameter name parameter => s!"macro '{name}' has no parameter '{parameter}'"
  | unregistered => "macro definition was not registered"

end MarkupTemplate
