/-!
# Operators of the host language
-/

namespace MarkupTemplate

/-- Operators with one operand. -/
inductive UnaryOp where
  | neg
  | not
  deriving DecidableEq, Repr, Inhabited

/-- Operators with two operands. -/
inductive BinaryOp where
  | add
  | sub
  | mul
  | div
  | floorDiv
  | mod
  | eq
  | ne
  | lt
  | le
  | gt
  | ge
  | isIn
  | isNotIn
  | and
  | or
  deriving DecidableEq, Repr, Inhabited

/-- The name of an operator, as messages give it. -/
def BinaryOp.name : BinaryOp → String
  | add => "Add"
  | sub => "Sub"
  | mul => "Mul"
  | div => "Div"
  | floorDiv => "FloorDiv"
  | mod => "Mod"
  | eq => "Eq"
  | ne => "Ne"
  | lt => "Lt"
  | le => "Le"
  | gt => "Gt"
  | ge => "Ge"
  | isIn => "In"
  | isNotIn => "NotIn"
  | and => "And"
  | or => "Or"

/-- The name of an operator. -/
def UnaryOp.name : UnaryOp → String
  | neg => "Neg"
  | not => "Not"

end MarkupTemplate
