import MarkupTemplate.Evaluation.Fault
import MarkupTemplate.Markup.Location

/-!
# Faults of rendering

Why a program does not render, and where. A fault is recoverable, so that an error handler may
take over, unless the output itself cannot be written.
-/

namespace MarkupTemplate

/-- The classes of rendering faults. -/
inductive RenderClass where
  | expression
  | type
  | macroResolution
  | output
  deriving DecidableEq, Repr, Inhabited

/-- The name of a class. -/
def RenderClass.name : RenderClass → String
  | expression => "ExpressionError"
  | type => "TypeError"
  | macroResolution => "MacroResolutionError"
  | output => "OutputError"

/-- Why a program does not render. -/
inductive RenderProblem where
  /-- An expression, given by its text, has no value. -/
  | evaluation (fault : EvalFault) (source : String)
  /-- The table of macros ends before this place. -/
  | noSuchMacro (id : Nat)
  | noSuchParameter (name parameter : String)
  /-- What should be called, given by its text, is no macro. -/
  | notMacro (source : String) (got : ValueKind)
  /-- A global variable is not of its declared type. -/
  | badGlobal (name : String) (fault : EvalFault)
  /-- The sink refuses the output. -/
  | sink
  /-- Macros and fills run inside each other beyond all bounds. -/
  | tooDeep
  deriving DecidableEq, Repr

namespace RenderProblem

/-- The class of a problem. -/
def kind : RenderProblem → RenderClass
  | evaluation (.mismatch _) _ => .type
  | evaluation .. => .expression
  | noSuchMacro _ => .macroResolution
  | noSuchParameter .. => .macroResolution
  | notMacro .. => .macroResolution
  | badGlobal .. => .type
  | sink => .output
  | tooDeep => .output

/-- The problem in words. -/
def message : RenderProblem → String
  | evaluation fault source => s!"{fault.message} (in '{source}')"
  | noSuchMacro id => s!"no macro with id {id}"
  | noSuchParameter name parameter => s!"macro '{name}' has no parameter '{parameter}'"
  | notMacro source got => s!"'{source}' evaluated to a {got.name} value, not a macro"
  | badGlobal name fault => s!"global '{name}': {fault.message}"
  | sink => "an error occurred when formatting an argument"
  | tooDeep => "macros are nested too deeply"

/-- The name under which templates see the problem: the class of the failed evaluation, if there
is one. -/
def typeName : RenderProblem → String
  | evaluation fault _ => fault.typeName
  | problem => problem.kind.name

end RenderProblem

/-- A fault of rendering. -/
structure RenderFault where
  problem : RenderProblem
  location : Option Location
  deriving DecidableEq, Repr

namespace RenderFault

/-- The place of a fault in words, after what it is. -/
def place (location : Option Location) : String :=
  match location with
  | some l => " at " ++ l.describe
  | none => ""

/-- The fault in words. -/
def message (fault : RenderFault) : String :=
  fault.problem.kind.name ++ place fault.location ++ ": " ++ fault.problem.message

/-- An error handler may take over. -/
def isRecoverable (fault : RenderFault) : Bool :=
  fault.problem.kind != .output

end RenderFault

end MarkupTemplate
