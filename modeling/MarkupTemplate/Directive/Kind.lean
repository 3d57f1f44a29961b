/-!
# Kinds of directives

The attributes that tell a template what to do: those of TAL, which work on one element and its
scope, and those of METAL, which define and use macros. Those of TAL run in a fixed order.
-/

namespace MarkupTemplate

/-- The directives of TAL. -/
inductive TalKind where
  | define
  | condition
  | loop
  | content
  | replace
  | attributes
  | omitTag
  | onError
  deriving DecidableEq, Repr, Inhabited

namespace TalKind

/-- The directive of this local name. -/
def parse? (name : String) : Option TalKind :=
  match name with
  | "define" => some define
  | "condition" => some condition
  | "repeat" => some loop
  | "content" => some content
  | "replace" => some replace
  | "attributes" => some attributes
  | "omit-tag" => some omitTag
  | "on-error" => some onError
  | _ => none

/-- The place in the order of execution; the handler of failures wraps everything. -/
def priority : TalKind → Nat
  | define => 0
  | condition => 1
  | loop => 2
  | content => 3
  | replace => 3
  | attributes => 4
  | omitTag => 5
  | onError => 6

/-- The attribute's usual name. -/
def attributeName : TalKind → String
  | define => "tal:define"
  | condition => "tal:condition"
  | loop => "tal:repeat"
  | content => "tal:content"
  | replace => "tal:replace"
  | attributes => "tal:attributes"
  | omitTag => "tal:omit-tag"
  | onError => "tal:on-error"

end TalKind

/-- The directives of METAL. -/
inductive MetalKind where
  | defineMacro
  | useMacro
  | defineSlot
  | fillSlot
  | defineParam
  | fillParam
  | importMacros
  deriving DecidableEq, Repr, Inhabited

namespace MetalKind

/-- The directive of this local name. -/
def parse? (name : String) : Option MetalKind :=
  match name with
  | "define-macro" => some defineMacro
  | "use-macro" => some useMacro
  | "define-slot" => some defineSlot
  | "fill-slot" => some fillSlot
  | "define-param" => some defineParam
  | "fill-param" => some fillParam
  | "import" => some importMacros
  | _ => none

/-- The attribute's usual name. -/
def attributeName : MetalKind → String
  | defineMacro => "metal:define-macro"
  | useMacro => "metal:use-macro"
  | defineSlot => "metal:define-slot"
  | fillSlot => "metal:fill-slot"
  | defineParam => "metal:define-param"
  | fillParam => "metal:fill-param"
  | importMacros => "metal:import"

end MetalKind

end MarkupTemplate
