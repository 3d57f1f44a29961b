import MarkupTemplate.Host.Fault
import MarkupTemplate.Host.Operator
import MarkupTemplate.Value.Kind

/-!
# Failures of evaluation

The causes for which an expression has no value, with their wording. Only a failed look-up lets the
next alternative be tried.
-/

namespace MarkupTemplate

/-- Why a path cannot be followed. -/
inductive Obstacle where
  | noSuchKey
  | outOfRange
  | notTraversable (kind : ValueKind)
  | noMember (kind : ValueKind) (name : String)
  deriving DecidableEq, Repr

/-- The obstacle in words. -/
def Obstacle.message : Obstacle → String
  | noSuchKey => "no such key"
  | outOfRange => "index out of range"
  | notTraversable kind => s!"cannot traverse a {kind.name} value"
  | noMember kind name => s!"{kind.name} value has no member '{name}'"

/-- Why an operation cannot be applied to its operands. -/
inductive Mismatch where
  | emptyAlternatives
  | expectedType (tag : TypeTag) (got : ValueKind)
  | notIterable (got : ValueKind)
  | argumentCount (function : String) (expected given : Nat)
  | oneOrTwoArguments (function : String)
  | expectsString (function : String) (got : ValueKind)
  | expectsList (function : String) (got : ValueKind)
  | expectsInteger (function : String) (got : ValueKind)
  | expectsNumber (function : String) (got : ValueKind)
  | noLength (got : ValueKind)
  | invalidLiteral (function text : String)
  | cannotConvert (function : String) (got : ValueKind)
  | emptySequence (function : String)
  | cannotSort (got : ValueKind)
  | overflow (op : BinaryOp)
  | negationOverflow
  | badNegation (got : ValueKind)
  | unsupported (op : BinaryOp) (left right : ValueKind)
  | divisionByZero
  | notComparable (left right : ValueKind)
  | notIndexable (target index : ValueKind)
  | noContainer (item container : ValueKind)
  | lazyOperator
  deriving DecidableEq, Repr

/-- The mismatch in words. -/
def Mismatch.message : Mismatch → String
  | emptyAlternatives => "empty alternatives"
  | expectedType tag got => s!"expected {tag.name} but got a {got.name} value"
  | notIterable got => s!"cannot iterate over a {got.name} value"
  | argumentCount f expected given => s!"{f}() takes {expected} argument(s) but {given} were given"
  | oneOrTwoArguments f => s!"{f}() takes 1 or 2 arguments"
  | expectsString f got => s!"{f}() expects a string, got {got.name}"
  | expectsList f got => s!"{f}() expects a list, got {got.name}"
  | expectsInteger f got => s!"{f}() expects an integer, got {got.name}"
  | expectsNumber f got => s!"{f}() expects a number, got {got.name}"
  | noLength got => s!"object of type {got.name} has no len()"
  | invalidLiteral f text => s!"invalid literal for {f}(): '{text}'"
  | cannotConvert f got => s!"{f}() cannot convert {got.name}"
  | emptySequence f => s!"{f}() arg is an empty sequence"
  | cannotSort got => s!"cannot sort {got.name} values"
  | overflow op => s!"integer overflow in {op.name}"
  | negationOverflow => "integer overflow in unary -"
  | badNegation got => s!"bad operand type for unary -: {got.name}"
  | unsupported op left right =>
    s!"unsupported operand types for {op.name}: {left.name} and {right.name}"
  | divisionByZero => "division by zero"
  | notComparable left right => s!"cannot compare {left.name} with {right.name}"
  | notIndexable target index => s!"{target.name} value cannot be indexed by {index.name}"
  | noContainer item container =>
    s!"'in' requires a container, got {item.name} in {container.name}"
  | lazyOperator => "boolean operators are evaluated lazily"

/-- Why host code cannot be evaluated. -/
inductive HostProblem where
  | noEvaluator (code : String)
  | unknownFunction (name : String)
  | unusable (fault : HostFault)
  deriving DecidableEq, Repr

/-- The problem in words. -/
def HostProblem.message : HostProblem → String
  | noEvaluator code => s!"no host evaluator available for '{code}'"
  | unknownFunction name => s!"unknown function '{name}'"
  | unusable fault => fault.message

/-- Why an expression has no value. -/
inductive EvalFault where
  | undefinedVariable (name : String)
  | navigation (path segment : String) (obstacle : Obstacle)
  | mismatch (m : Mismatch)
  | host (problem : HostProblem)
  deriving DecidableEq, Repr

namespace EvalFault

/-- The fault in words. -/
def message : EvalFault → String
  | undefinedVariable name => s!"Undefined variable '{name}'"
  | navigation path segment obstacle =>
    s!"Cannot traverse '{segment}' in path '{path}': {obstacle.message}"
  | mismatch m => s!"Type error: {m.message}"
  | host problem => s!"Host expression error: {problem.message}"

/-- A look-up failed, so another alternative may serve. -/
def isLookup : EvalFault → Bool
  | undefinedVariable _ => true
  | navigation .. => true
  | mismatch _ => false
  | host _ => false

/-- The class of the fault, as templates see it. -/
def typeName : EvalFault → String
  | undefinedVariable _ => "NameError"
  | navigation .. => "LookupError"
  | mismatch _ => "TypeError"
  | host _ => "HostError"

end EvalFault

end MarkupTemplate
