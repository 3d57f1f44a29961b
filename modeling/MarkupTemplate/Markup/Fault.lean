import MarkupTemplate.Markup.Location
import MarkupTemplate.Text.Quoted

/-!
# Faults in markup

What can be wrong with a source as markup, where, and the piece of text that shows it.
-/

namespace MarkupTemplate

/-- What is wrong with a piece of markup. -/
inductive MarkupProblem where
  | undefinedPrefix (name : String)
  | unexpectedEndTag
  | malformedMarkup
  | malformedTag
  deriving DecidableEq, Repr

/-- The problem in words. -/
def MarkupProblem.message : MarkupProblem → String
  | undefinedPrefix name => s!"undefined namespace prefix '{name}'"
  | unexpectedEndTag => "unexpected end tag"
  | malformedMarkup => "malformed markup"
  | malformedTag => "malformed tag"

/-- A source is not well-formed markup. -/
structure MarkupFault where
  problem : MarkupProblem
  location : Location
  /-- The offending source text. -/
  text : String
  deriving DecidableEq, Repr

/-- The fault in words. -/
def MarkupFault.message (fault : MarkupFault) : String :=
  s!"{fault.problem.message} at {fault.location.describe}: {Text.quote fault.text}"

end MarkupTemplate
