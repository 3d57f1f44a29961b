import MarkupTemplate.Text.Quoted

/-!
# Faults of host code

Why host code cannot be used: it does not read as an expression, or it calls a function or names a
library that does not exist.
-/

namespace MarkupTemplate

/-- Why a text is no host expression; each cause holds the text from the place where it shows. -/
inductive HostSyntaxProblem where
  /-- A complete expression is followed by something. -/
  | trailing (rest : String)
  /-- An operand was expected. -/
  | noOperand (rest : String)
  /-- An operand was expected, and a keyword stands there. -/
  | keyword (rest : String)
  /-- What is called is neither a name nor a member. -/
  | notCallable (rest : String)
  deriving DecidableEq, Repr

/-- The problem in words. -/
def HostSyntaxProblem.message (problem : HostSyntaxProblem) : String :=
  let tell := fun (what rest code : String) =>
    "Parsing " ++ what ++ ": Error \x7b input: " ++ Text.quote rest ++ ", code: " ++ code ++ " \x7d"
  match problem with
  | trailing rest => tell "Error" rest "Eof"
  | noOperand rest => tell "Error" rest "Satisfy"
  | keyword rest => tell "Error" rest "Verify"
  | notCallable rest => tell "Failure" rest "Verify"

/-- Why host code cannot be used. -/
inductive HostFault where
  | badSyntax (code : String) (problem : HostSyntaxProblem)
  | unknownFunction (name : String)
  | unknownLibrary (name : String)
  deriving DecidableEq, Repr

/-- The fault in words. -/
def HostFault.message : HostFault → String
  | badSyntax code problem => s!"Syntax error in host expression '{code}': {problem.message}"
  | unknownFunction name => s!"Unknown function: {name}"
  | unknownLibrary name => s!"Unknown function library: {name}"

end MarkupTemplate
