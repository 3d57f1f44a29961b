import MarkupTemplate.Host.Operator
import MarkupTemplate.Value.Basic

/-!
# Host expressions

The syntax tree of host code: literals, variables, lists, operators, members, indexing and calls of
library functions. A call of a member passes its target as the first argument.
-/

namespace MarkupTemplate

/-- A host expression. -/
inductive HostExpr where
  | literal (v : Value)
  | name (n : String)
  | list (items : List HostExpr)
  | unary (op : UnaryOp) (operand : HostExpr)
  | binary (op : BinaryOp) (left right : HostExpr)
  | member (target : HostExpr) (n : String)
  | index (target i : HostExpr)
  | call (function : String) (args : List HostExpr)
  deriving Inhabited

namespace HostExpr

mutual

/-- The functions that an expression calls, in order. -/
def called : HostExpr → List String
  | literal _ => []
  | name _ => []
  | list items => calledAll items
  | unary _ e => e.called
  | binary _ l r => l.called ++ r.called
  | member e _ => e.called
  | index e i => e.called ++ i.called
  | call f args => f :: calledAll args

/-- The functions that expressions call, in order. -/
def calledAll : List HostExpr → List String
  | [] => []
  | e :: es => e.called ++ calledAll es

end

/-- The expression as messages show it. -/
def describe : HostExpr → String
  | name n => n
  | member e n => e.describe ++ "." ++ n
  | _ => "<expression>"

end HostExpr

end MarkupTemplate
