import MarkupTemplate.Program.Basic

/-!
# The expressions of a program

Every expression of a program in a fixed order: those of the body, then for each macro the defaults
of its parameters and those of its body. An operation's own expressions stand before those of its
blocks, only the handler of a failure stands behind its block.
-/

namespace MarkupTemplate

/-- The test of an omission. -/
def Omission.expressions : Omission → List LocatedExpression
  | never => []
  | always => []
  | when e => [e]

/-- The expressions of a tag. -/
def TagPlan.expressions (tag : TagPlan) : List LocatedExpression :=
  tag.computed.map ComputedAttribute.value ++ tag.omission.expressions

/-- The expression that computes a call's target. -/
def MacroTarget.expressions : MacroTarget → List LocatedExpression
  | known _ => []
  | computed e => [e]

/-- The expression of an argument. -/
def Argument.expressions : Argument → List LocatedExpression
  | value e => [e]
  | default => []

namespace Operation

mutual

/-- The expressions of an operation. -/
def expressions : Operation → List LocatedExpression
  | literal _ => []
  | emit e _ fallback => e :: expressionsAll fallback
  | pushScope => []
  | popScope => []
  | define _ _ e => [e]
  | condition test body => test :: expressionsAll body
  | .repeat _ items body => items :: expressionsAll body
  | element tag body => tag.expressions ++ expressionsAll body
  | onError body handler _ => expressionsAll body ++ [handler]
  | callMacro target fills arguments _ =>
    target.expressions ++ expressionsFills fills ++
      arguments.flatMap fun argument => argument.2.expressions
  | slot _ fallback => expressionsAll fallback

/-- The expressions of a block. -/
def expressionsAll : List Operation → List LocatedExpression
  | [] => []
  | op :: ops => op.expressions ++ expressionsAll ops

/-- The expressions of the fills of a call. -/
def expressionsFills : List (String × List Operation) → List LocatedExpression
  | [] => []
  | (_, body) :: fills => expressionsAll body ++ expressionsFills fills

end

end Operation

/-- The default of a parameter. -/
def Parameter.expressions (p : Parameter) : List LocatedExpression :=
  p.default?.toList

/-- The expressions of a macro. -/
def Macro.expressions (m : Macro) : List LocatedExpression :=
  m.parameters.flatMap Parameter.expressions ++ Operation.expressionsAll m.body

/-- The expressions of a program. -/
def Program.expressions (program : Program) : List LocatedExpression :=
  Operation.expressionsAll program.body ++ program.macros.flatMap Macro.expressions

end MarkupTemplate
