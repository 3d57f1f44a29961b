import MarkupTemplate.Expression.Path

/-!
# Expressions

What directives compute with: paths, alternatives, texts with expressions inside, negation, tests for
paths, numbers, the two sentinels, and code of the host language.
-/

namespace MarkupTemplate

/-- A number in an expression. -/
inductive Literal where
  | int (n : Int64)
  | float (x : Float)
  deriving Inhabited

mutual

/-- An expression. -/
inductive Expression where
  | path (p : Path)
  /-- The first alternative that can be looked up. -/
  | alternatives (es : List Expression)
  /-- A text with expressions inside. -/
  | string (parts : List StringPart)
  | not (e : Expression)
  /-- Some path leads to a value. -/
  | anyPath (paths : List Path)
  | literal (l : Literal)
  | nothing
  | default
  /-- Code of the host language. -/
  | host (code : String)

/-- A part of a text. -/
inductive StringPart where
  | text (s : String)
  | interpolation (e : Expression)

end

instance : Inhabited Expression := ⟨.nothing⟩

namespace Expression

mutual

/-- The pieces of host code in an expression, in order. -/
def hostCode : Expression → List String
  | path _ => []
  | alternatives es => hostCodeAll es
  | string parts => hostCodeParts parts
  | not e => e.hostCode
  | anyPath _ => []
  | literal _ => []
  | nothing => []
  | default => []
  | host code => [code]

/-- The pieces of host code in alternatives. -/
def hostCodeAll : List Expression → List String
  | [] => []
  | e :: es => e.hostCode ++ hostCodeAll es

/-- The pieces of host code in the parts of a text. -/
def hostCodeParts : List StringPart → List String
  | [] => []
  | .text _ :: parts => hostCodeParts parts
  | .interpolation e :: parts => e.hostCode ++ hostCodeParts parts

end

/-- The path that an expression is. -/
def path? : Expression → Option Path
  | path p => some p
  | _ => none

end Expression

end MarkupTemplate
