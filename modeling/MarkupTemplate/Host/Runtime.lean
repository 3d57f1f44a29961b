import MarkupTemplate.Evaluation.Evaluate
import MarkupTemplate.Host.Library
import MarkupTemplate.Host.Parser

/-!
# Evaluating host code

A runtime holds the libraries that host code may call and the code it has prepared: read, and checked
to call known functions only. Code that is not prepared is read when it is evaluated.
-/

namespace MarkupTemplate

open Host

/-- Libraries and prepared code. -/
structure HostRuntime where
  libraries : List Library
  /-- The prepared code with its expressions, the latest first. -/
  prepared : List (String × HostExpr)
  deriving Inhabited

namespace HostRuntime

/-- A runtime with nothing prepared. -/
def ofLibraries (libraries : List Library) : HostRuntime := ⟨libraries, []⟩

/-- Reads code and checks the functions it calls, once for each text. -/
def prepare (runtime : HostRuntime) (code : String) : Except HostFault HostRuntime := do
  if (runtime.prepared.lookup code).isSome then return runtime
  let e ← Host.parse code
  match e.called.find? fun f => (findFunction? runtime.libraries f).isNone with
  | some f => .error (.unknownFunction f)
  | none => return { runtime with prepared := (code, e) :: runtime.prepared }

mutual

/-- The value of an expression in a scope. -/
def eval (libraries : List Library) (scope : Scope) : HostExpr → Except EvalFault Value
  | .literal v => .ok v
  | .name n =>
    match scope.get? n with
    | some v => .ok v
    | none => .error (.undefinedVariable n)
  | .list items => .list <$> evalAll libraries scope items
  | .unary .not e => (fun v => .bool !v.isTruthy) <$> eval libraries scope e
  | .unary .neg e => do negate (← eval libraries scope e)
  | .binary op l r => do
    let left ← eval libraries scope l
    match op with
    | .and => if left.isTruthy then eval libraries scope r else return left
    | .or => if left.isTruthy then return left else eval libraries scope r
    | op => binary op left (← eval libraries scope r)
  | .member e n => do
    let v ← eval libraries scope e
    match v.get? n with
    | some part => return part
    | none => .error (.navigation (e.describe ++ "." ++ n) n (.noMember v.kind n))
  | .index e i => do
    let v ← eval libraries scope e
    subscript v (← eval libraries scope i)
  | .call f args =>
    match findFunction? libraries f with
    | some builtin => do builtin.call (← evalAll libraries scope args)
    | none => .error (.host (.unknownFunction f))

/-- The values of expressions in order. -/
def evalAll (libraries : List Library) (scope : Scope) :
    List HostExpr → Except EvalFault (List Value)
  | [] => .ok []
  | e :: es => do
    let v ← eval libraries scope e
    return v :: (← evalAll libraries scope es)

end

/-- The value of host code in a scope. -/
def evaluate (runtime : HostRuntime) : HostEvaluator := fun code scope =>
  match runtime.prepared.lookup code with
  | some e => eval runtime.libraries scope e
  | none =>
    match Host.parse code with
    | .ok e => eval runtime.libraries scope e
    | .error fault => .error (.host (.unusable fault))

end HostRuntime

end MarkupTemplate
