import MarkupTemplate.Expression.Basic
import MarkupTemplate.Markup.Location
import MarkupTemplate.Markup.Node
import MarkupTemplate.Value.Basic

/-!
# Programs

A compiled template is a block of operations with a table of macros. Operations call macros by their
place in the table, so that a macro that calls itself is held once. The namespaces say which macros
the main template sees under which alias; the empty alias is the template's own.
-/

namespace MarkupTemplate

/-- An expression with its text and its place in the source. -/
structure LocatedExpression where
  text : String
  expression : Expression
  location : Location
  deriving Inhabited

/-- The frame that a definition writes to. -/
inductive BindingKind where
  | innermost
  | root
  /-- The frame that binds the name already. -/
  | existing
  deriving DecidableEq, Repr, Inhabited

/-- When a tag is left out around its content. -/
inductive Omission where
  | never
  | always
  | when (e : LocatedExpression)
  deriving Inhabited

/-- An attribute that is carried over from the source. -/
structure StaticAttribute where
  name : String
  /-- The blanks before the attribute. -/
  leading : String
  equals : Option String
  value : Option String
  quote : Option Char
  deriving DecidableEq, Repr, Inhabited

/-- The attribute as it stands in a tag. -/
def StaticAttribute.source (a : StaticAttribute) : String :=
  attributeSource a.leading a.name a.equals a.value a.quote

/-- An attribute whose value is computed. -/
structure ComputedAttribute where
  name : String
  value : LocatedExpression
  deriving Inhabited

/-- A pair of tags that is written anew each time. -/
structure TagPlan where
  name : String
  attributes : List StaticAttribute
  /-- Of one name the last one counts. -/
  computed : List ComputedAttribute
  /-- The closing bracket as written. -/
  close : String
  /-- The text of the end tag, if there is one. -/
  closing : Option String
  omission : Omission
  deriving Inhabited

/-- The macro that a call means. -/
inductive MacroTarget where
  /-- The macro at this place of the table. -/
  | known (id : Nat)
  /-- The macro whose handle the expression gives. -/
  | computed (e : LocatedExpression)
  deriving Inhabited

/-- What a call passes for a parameter. -/
inductive Argument where
  | value (e : LocatedExpression)
  /-- The macro's own default. -/
  | default
  deriving Inhabited

/-- One step of a program. -/
inductive Operation where
  | literal (text : String)
  /-- Writes a value, escaped unless it is markup; the value `default` runs the block. -/
  | emit (value : LocatedExpression) (asMarkup : Bool) (fallback : List Operation)
  | pushScope
  | popScope
  | define (kind : BindingKind) (name : String) (value : LocatedExpression)
  /-- Runs the block if the test holds. -/
  | condition (test : LocatedExpression) (body : List Operation)
  /-- Runs the block for each item, with the item and the state of the repetition bound. -/
  | repeat (name : String) (items : LocatedExpression) (body : List Operation)
  | element (tag : TagPlan) (body : List Operation)
  /-- Writes the handler's value in place of the block if the block fails. -/
  | onError (body : List Operation) (handler : LocatedExpression) (asMarkup : Bool)
  | callMacro (target : MacroTarget) (fills : List (String × List Operation))
    (arguments : List (String × Argument)) (location : Location)
  /-- Runs the caller's fill of a slot, or the block if the caller has none. -/
  | slot (name : String) (fallback : List Operation)
  deriving Inhabited

/-- Operations in order. -/
abbrev Block := List Operation

/-- A parameter of a macro; without a default it is `nothing` unless it is filled. -/
structure Parameter where
  name : String
  type : TypeTag
  default? : Option LocatedExpression
  deriving Inhabited

/-- A macro. -/
structure Macro where
  name : String
  /-- The template that defines it; the main template has no name here. -/
  template : Option String
  parameters : List Parameter
  body : Block
  location : Location
  deriving Inhabited

/-- A compiled template. -/
structure Program where
  body : Block
  macros : List Macro
  /-- Places of macros by alias and name. -/
  namespaces : Fields (Fields Nat)
  deriving Inhabited

namespace Program

/-- The handles of the macros under one alias. -/
def handles (names : Fields Nat) : Value :=
  .map (names.map fun entry => (entry.1, .handle ⟨entry.2, entry.1⟩))

/-- The variables through which expressions reach macros: `macros/NAME` for the template's own and
`ALIAS/macros/NAME` for others. -/
def macroBindings (program : Program) : List (String × Value) :=
  program.namespaces.map fun entry =>
    if entry.1 = "" then ("macros", handles entry.2)
    else (entry.1, .map [("macros", handles entry.2)])

end Program

end MarkupTemplate
