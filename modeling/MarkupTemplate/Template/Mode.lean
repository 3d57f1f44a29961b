/-!
# How templates are read
-/

namespace MarkupTemplate

/-- How a template is read. -/
inductive TemplateMode where
  /-- As markup with directives. -/
  | markup
  /-- As text that stands for itself. -/
  | text
  deriving DecidableEq, Repr, Inhabited

/-- The name of a mode. -/
def TemplateMode.name : TemplateMode → String
  | markup => "markup"
  | text => "text"

end MarkupTemplate
