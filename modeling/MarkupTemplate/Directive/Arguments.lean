import MarkupTemplate.Directive.Entries
import MarkupTemplate.Program.Basic
import MarkupTemplate.Template.Fault

/-!
# Arguments of directives

What the argument of each directive says. Every expression is given the place of its directive.
-/

namespace MarkupTemplate

open Text

namespace Directive

/-- An expression at a place. -/
def expression (cs : List Char) (location : Location) : Except CompileProblem LocatedExpression :=
  match Expression.parse (String.ofList cs) with
  | .ok e => .ok ⟨String.ofList (trim cs), e, location⟩
  | .error fault => .error (.expression fault)

/-- A name in some role. -/
def name (role : NameRole) (cs : List Char) : Except CompileProblem String :=
  if isIdentifier cs then .ok (String.ofList cs)
  else if cs.isEmpty then .error (.missingName role)
  else .error (.invalidName role (String.ofList cs))

/-- A variable to be bound. -/
structure Definition where
  kind : BindingKind
  name : String
  value : LocatedExpression
  deriving Inhabited

/-- The frame that a word asks for. -/
def bindingKind? (word : List Char) : Option BindingKind :=
  match String.ofList word with
  | "local" => some .innermost
  | "global" => some .root
  | "set" => some .existing
  | _ => none

/-- One definition: where it binds, unless it is the innermost frame, its name and its value. -/
def definition (location : Location) (entry : String) : Except CompileProblem Definition := do
  let (word, rest) := firstWord entry.toList
  let kind := bindingKind? word
  let (written, rest) := if kind.isSome then firstWord rest else (word, rest)
  let variableName ← name .definedVariable written
  if rest.isEmpty then .error (.missingDefinition variableName)
  else return ⟨kind.getD .innermost, variableName, ← expression rest location⟩

/-- The argument of `define`. -/
def definitions (argument : String) (location : Location) :
    Except CompileProblem (List Definition) :=
  (splitEntries argument).mapM (definition location)

/-- The argument of `repeat`: a variable and the items. -/
def loop (argument : String) (location : Location) :
    Except CompileProblem (String × LocatedExpression) := do
  let (word, rest) := firstWord argument.toList
  let variableName ← name .loopVariable word
  if (trim rest).isEmpty then .error .missingItems
  else return (variableName, ← expression rest location)

/-- The argument of `content` and `replace`: whether the value is markup, and the value. -/
def content (argument : String) (location : Location) :
    Except CompileProblem (Bool × LocatedExpression) := do
  let (word, rest) := firstWord argument.toList
  match String.ofList word, rest.isEmpty with
  | "structure", false => return (true, ← expression rest location)
  | "text", false => return (false, ← expression rest location)
  | _, _ => return (false, ← expression argument.toList location)

/-- The argument of `on-error`; an empty one stands for nothing. -/
def handler (argument : String) (location : Location) :
    Except CompileProblem (Bool × LocatedExpression) :=
  if (trim argument.toList).isEmpty then
    .ok (false, ⟨"nothing", .nothing, location⟩)
  else content argument location

/-- One attribute with its value. -/
def computedAttribute (location : Location) (entry : String) :
    Except CompileProblem ComputedAttribute := do
  let (word, rest) := firstWord entry.toList
  if !isAttributeName word then .error (.invalidAttributeName (String.ofList word))
  else if rest.isEmpty then .error (.missingAttributeValue (String.ofList word))
  else return ⟨String.ofList word, ← expression rest location⟩

/-- The argument of `attributes`. -/
def computedAttributes (argument : String) (location : Location) :
    Except CompileProblem (List ComputedAttribute) :=
  (splitEntries argument).mapM (computedAttribute location)

/-- The argument of `omit-tag`; an empty one always omits. -/
def omission (argument : String) (location : Location) : Except CompileProblem Omission :=
  if (trim argument.toList).isEmpty then .ok .always
  else .when <$> expression argument.toList location

/-- One parameter: type, name and perhaps a default. -/
def parameter (location : Location) (entry : String) : Except CompileProblem Parameter := do
  let (word, rest) := firstWord entry.toList
  match TypeTag.parse? (String.ofList word) with
  | none => .error (.unknownType (String.ofList word))
  | some type =>
    let (word, rest) := firstWord rest
    let parameterName ← name .parameter word
    if rest.isEmpty then return ⟨parameterName, type, none⟩
    else return ⟨parameterName, type, some (← expression rest location)⟩

/-- The argument of `define-param`. -/
def parameters (argument : String) (location : Location) :
    Except CompileProblem (List Parameter) :=
  (splitEntries argument).mapM (parameter location)

/-- One argument of a macro. -/
def argumentEntry (location : Location) (entry : String) :
    Except CompileProblem (String × Argument) := do
  let (word, rest) := firstWord entry.toList
  let parameterName ← name .argument word
  let value := trim rest
  if value.isEmpty then .error (.missingArgument parameterName)
  else if String.ofList value = "default" then return (parameterName, .default)
  else return (parameterName, .value (← expression value location))

/-- The argument of `fill-param`. -/
def arguments (argument : String) (location : Location) :
    Except CompileProblem (List (String × Argument)) :=
  (splitEntries argument).mapM (argumentEntry location)

/-- A template whose macros are imported, under an alias or, with the empty one, as one's own. -/
structure ImportEntry where
  label : String
  path : String
  deriving DecidableEq, Repr, Inhabited

/-- One import; a word before a colon is an alias unless it begins a URI. -/
def importEntry (entry : String) : ImportEntry :=
  match splitFirst ':' entry.toList with
  | some (front, rest) =>
    if isIdentifier front && (dropStart? ['/', '/'] rest).isNone then
      ⟨String.ofList front, String.ofList (trim rest)⟩
    else ⟨"", entry⟩
  | none => ⟨"", entry⟩

/-- The argument of `import`. -/
def imports (argument : String) : List ImportEntry :=
  (splitEntries argument).map importEntry

end Directive

end MarkupTemplate
