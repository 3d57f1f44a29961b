import MarkupTemplate.Evaluation.Scope
import MarkupTemplate.Expression.Basic

/-!
# Evaluating expressions

The value of an expression in a scope. Host code is handed to an evaluator of its own.
-/

namespace MarkupTemplate

/-- Gives host code its value in a scope. -/
abbrev HostEvaluator := String → Scope → Except EvalFault Value

/-- Refuses all host code. -/
def noHost : HostEvaluator := fun code _ => .error (.host (.noEvaluator code))

/-- Why a segment leads nowhere from a value. -/
def Obstacle.of : Value → Obstacle
  | .map _ => .noSuchKey
  | .list _ => .outOfRange
  | v => .notTraversable v.kind

namespace Path

/-- Follows the segments of a path from a value. -/
def follow (p : Path) (v : Value) : List String → Except EvalFault Value
  | [] => .ok v
  | segment :: segments =>
    match v.get? segment with
    | some part => p.follow part segments
    | none => .error (.navigation p.text segment (.of v))

/-- The value that a path leads to. -/
def resolve (p : Path) (scope : Scope) : Except EvalFault Value :=
  match scope.get? p.root with
  | some v => p.follow v p.segments
  | none => .error (.undefinedVariable p.root)

end Path

/-- The value of a number in an expression. -/
def Literal.value : Literal → Value
  | .int n => .int n
  | .float x => .float x

namespace Expression

mutual

/-- The value of an expression. -/
def evaluate (run : HostEvaluator) (scope : Scope) : Expression → Except EvalFault Value
  | path p => p.resolve scope
  | alternatives es => evaluateFirst run scope (.mismatch .emptyAlternatives) es
  | string parts => .str <$> evaluateParts run scope parts
  | not e => (fun v => .bool !v.isTruthy) <$> e.evaluate run scope
  | anyPath paths => .ok (.bool (paths.any fun p => (p.resolve scope).isOk))
  | literal l => .ok l.value
  | nothing => .ok .nothing
  | default => .ok .default
  | host code => run code scope

/-- The value of the first alternative that can be looked up; `fault` is that of the one before. -/
def evaluateFirst (run : HostEvaluator) (scope : Scope) (fault : EvalFault) :
    List Expression → Except EvalFault Value
  | [] => .error fault
  | e :: es =>
    match e.evaluate run scope with
    | .ok v => .ok v
    | .error fault => if fault.isLookup then evaluateFirst run scope fault es else .error fault

/-- The text of the parts of a text. -/
def evaluateParts (run : HostEvaluator) (scope : Scope) :
    List StringPart → Except EvalFault String
  | [] => .ok ""
  | .text s :: parts => (s ++ ·) <$> evaluateParts run scope parts
  | .interpolation e :: parts => do
    let v ← e.evaluate run scope
    let rest ← evaluateParts run scope parts
    return v.text ++ rest

end

end Expression

end MarkupTemplate
