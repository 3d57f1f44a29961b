import MarkupTemplate.Artifact.Expression
import MarkupTemplate.Program.Basic

/-!
# Stored programs

Programs as data, written and read back.
-/

namespace MarkupTemplate

open Json (variant required optionalField listOf? record?)

/-- An expression with its place as data. -/
def LocatedExpression.toJson (e : LocatedExpression) : Json :=
  .object [("text", .string e.text), ("expression", e.expression.toJson),
    ("location", e.location.toJson)]

/-- The expression with its place that data stands for. -/
def LocatedExpression.ofJson? (j : Json) : Option LocatedExpression := do
  match ← record? ["text", "expression", "location"] j with
  | [text, e, location] =>
    return ⟨← required Json.text? text, ← required Expression.ofJson? e,
      ← required Location.ofJson? location⟩
  | _ => none

/-- The name of a binding's frame in stored programs. -/
def BindingKind.name : BindingKind → String
  | innermost => "Local"
  | root => "Global"
  | existing => "Set"

/-- The frame of a binding that data stands for. -/
def BindingKind.ofJson? (j : Json) : Option BindingKind := do
  match ← Json.variant? j with
  | ("Local", .null) => some innermost
  | ("Global", .null) => some root
  | ("Set", .null) => some existing
  | _ => none

/-- An omission as data. -/
def Omission.toJson : Omission → Json
  | never => .string "Never"
  | always => .string "Always"
  | when e => variant "When" e.toJson

/-- The omission that data stands for. -/
def Omission.ofJson? (j : Json) : Option Omission := do
  match ← Json.variant? j with
  | ("Never", .null) => some never
  | ("Always", .null) => some always
  | ("When", content) => when <$> LocatedExpression.ofJson? content
  | _ => none

/-- An attribute as data. -/
def StaticAttribute.toJson (a : StaticAttribute) : Json :=
  .object [("name", .string a.name), ("leading", .string a.leading),
    ("equals", Json.ofOption .string a.equals), ("value", Json.ofOption .string a.value),
    ("quote", Json.ofOption (fun c => .string c.toString) a.quote)]

/-- The attribute that data stands for. -/
def StaticAttribute.ofJson? (j : Json) : Option StaticAttribute := do
  match ← record? ["name", "leading", "equals", "value", "quote"] j with
  | [name, leading, equals, value, quote] =>
    return ⟨← required Json.text? name, ← required Json.text? leading,
      ← optionalField Json.text? equals, ← optionalField Json.text? value,
      ← optionalField Json.char? quote⟩
  | _ => none

/-- A computed attribute as data. -/
def ComputedAttribute.toJson (a : ComputedAttribute) : Json :=
  .object [("name", .string a.name), ("expr", a.value.toJson)]

/-- The computed attribute that data stands for. -/
def ComputedAttribute.ofJson? (j : Json) : Option ComputedAttribute := do
  match ← record? ["name", "expr"] j with
  | [name, e] => return ⟨← required Json.text? name, ← required LocatedExpression.ofJson? e⟩
  | _ => none

/-- Tags as data. -/
def TagPlan.toJson (tag : TagPlan) : Json :=
  .object [("name", .string tag.name),
    ("attributes", .array (tag.attributes.map StaticAttribute.toJson)),
    ("rewrites", .array (tag.computed.map ComputedAttribute.toJson)),
    ("close", .string tag.close), ("end", Json.ofOption .string tag.closing),
    ("omit", tag.omission.toJson)]

/-- The tags that data stands for. -/
def TagPlan.ofJson? (j : Json) : Option TagPlan := do
  match ← record? ["name", "attributes", "rewrites", "close", "end", "omit"] j with
  | [name, attributes, computed, close, closing, omission] =>
    return ⟨← required Json.text? name,
      ← required (listOf? StaticAttribute.ofJson?) attributes,
      ← required (listOf? ComputedAttribute.ofJson?) computed, ← required Json.text? close,
      ← optionalField Json.text? closing, ← required Omission.ofJson? omission⟩
  | _ => none

/-- The target of a call as data. -/
def MacroTarget.toJson : MacroTarget → Json
  | known id => variant "Static" (.int id)
  | computed e => variant "Dynamic" e.toJson

/-- The target that data stands for. -/
def MacroTarget.ofJson? (j : Json) : Option MacroTarget := do
  match ← Json.variant? j with
  | ("Static", content) => known <$> content.nat?
  | ("Dynamic", content) => computed <$> LocatedExpression.ofJson? content
  | _ => none

/-- An argument as data. -/
def Argument.toJson : Argument → Json
  | value e => variant "Expr" e.toJson
  | default => .string "Default"

/-- The argument that data stands for. -/
def Argument.ofJson? (j : Json) : Option Argument := do
  match ← Json.variant? j with
  | ("Expr", content) => value <$> LocatedExpression.ofJson? content
  | ("Default", .null) => some default
  | _ => none

/-- A named argument as data. -/
def Argument.toJsonNamed (entry : String × Argument) : Json :=
  .object [("name", .string entry.1), ("value", entry.2.toJson)]

/-- The named argument that data stands for. -/
def Argument.ofJsonNamed? (j : Json) : Option (String × Argument) := do
  match ← record? ["name", "value"] j with
  | [name, argument] =>
    return (← required Json.text? name, ← required Argument.ofJson? argument)
  | _ => none

namespace Operation

mutual

/-- An operation as data. -/
def toJson : Operation → Json
  | literal text => variant "EmitLiteral" (.string text)
  | emit e asMarkup fallback => variant "EmitExpression" (.object [("expr", e.toJson),
      ("structure", .bool asMarkup), ("default", .array (toJsonAll fallback))])
  | pushScope => .string "PushScope"
  | popScope => .string "PopScope"
  | define kind name e => variant "Define" (.object [("kind", .string kind.name),
      ("name", .string name), ("expr", e.toJson)])
  | condition test body => variant "Condition" (.object [("test", test.toJson),
      ("body", .array (toJsonAll body))])
  | .repeat name items body => variant "Repeat" (.object [("variable", .string name),
      ("items", items.toJson), ("body", .array (toJsonAll body))])
  | element tag body => variant "Element" (.object [("tag", tag.toJson),
      ("body", .array (toJsonAll body))])
  | onError body handler asMarkup => variant "OnError" (.object [("body", .array (toJsonAll body)),
      ("handler", handler.toJson), ("structure", .bool asMarkup)])
  | callMacro target fills arguments location => variant "CallMacro" (.object
      [("target", target.toJson), ("fills", .array (toJsonFills fills)),
        ("params", .array (arguments.map Argument.toJsonNamed)), ("location", location.toJson)])
  | slot name fallback => variant "DefineSlot" (.object [("name", .string name),
      ("default", .array (toJsonAll fallback))])

/-- Operations as data. -/
def toJsonAll : List Operation → List Json
  | [] => []
  | op :: ops => op.toJson :: toJsonAll ops

/-- Fills as data. -/
def toJsonFills : List (String × List Operation) → List Json
  | [] => []
  | (name, body) :: fills =>
    .object [("name", .string name), ("body", .array (toJsonAll body))] :: toJsonFills fills

end

/-- The fill that data stands for, if `block` reads blocks. -/
def readFill (block : Json → Option Block) (j : Json) : Option (String × Block) := do
  match ← record? ["name", "body"] j with
  | [name, body] => return (← required Json.text? name, ← required block body)
  | _ => none

/-- The operation whose variant and content are these, if `block` reads blocks. -/
def readVariant (block : Json → Option Block) (name : String) (content : Json) :
    Option Operation := do
  match name with
  | "EmitLiteral" => literal <$> content.text?
  | "EmitExpression" =>
    match ← record? ["expr", "structure", "default"] content with
    | [e, asMarkup, fallback] =>
      return emit (← required LocatedExpression.ofJson? e) (← required Json.bool? asMarkup)
        (← required block fallback)
    | _ => none
  | "PushScope" => if content matches .null then some pushScope else none
  | "PopScope" => if content matches .null then some popScope else none
  | "Define" =>
    match ← record? ["kind", "name", "expr"] content with
    | [kind, name, e] =>
      return define (← required BindingKind.ofJson? kind) (← required Json.text? name)
        (← required LocatedExpression.ofJson? e)
    | _ => none
  | "Condition" =>
    match ← record? ["test", "body"] content with
    | [test, body] =>
      return condition (← required LocatedExpression.ofJson? test) (← required block body)
    | _ => none
  | "Repeat" =>
    match ← record? ["variable", "items", "body"] content with
    | [name, items, body] =>
      return .repeat (← required Json.text? name) (← required LocatedExpression.ofJson? items)
        (← required block body)
    | _ => none
  | "Element" =>
    match ← record? ["tag", "body"] content with
    | [tag, body] => return element (← required TagPlan.ofJson? tag) (← required block body)
    | _ => none
  | "OnError" =>
    match ← record? ["body", "handler", "structure"] content with
    | [body, handler, asMarkup] =>
      return onError (← required block body) (← required LocatedExpression.ofJson? handler)
        (← required Json.bool? asMarkup)
    | _ => none
  | "CallMacro" =>
    match ← record? ["target", "fills", "params", "location"] content with
    | [target, fills, arguments, location] =>
      return callMacro (← required MacroTarget.ofJson? target)
        (← required (listOf? (readFill block)) fills)
        (← required (listOf? Argument.ofJsonNamed?) arguments)
        (← required Location.ofJson? location)
    | _ => none
  | "DefineSlot" =>
    match ← record? ["name", "default"] content with
    | [name, fallback] => return slot (← required Json.text? name) (← required block fallback)
    | _ => none
  | _ => none

/-- The operation that data of at most this height stands for. -/
def read : Nat → Json → Option Operation
  | 0, _ => none
  | height + 1, j => do
    let (name, content) ← Json.variant? j
    readVariant (listOf? (read height)) name content

end Operation

/-- The block that data stands for. -/
def Block.ofJson? (j : Json) : Option Block :=
  listOf? (Operation.read j.height) j

/-- The declared type that data stands for. -/
def TypeTag.ofJson? (j : Json) : Option TypeTag := do
  match ← Json.variant? j with
  | (name, .null) => [int, float, str, bool, list, map, any].find? (·.name == name)
  | _ => none

/-- A parameter as data. -/
def Parameter.toJson (p : Parameter) : Json :=
  .object [("name", .string p.name), ("type_tag", .string p.type.name),
    ("default", Json.ofOption LocatedExpression.toJson p.default?)]

/-- The parameter that data stands for. -/
def Parameter.ofJson? (j : Json) : Option Parameter := do
  match ← record? ["name", "type_tag", "default"] j with
  | [name, type, default?] =>
    return ⟨← required Json.text? name, ← required TypeTag.ofJson? type,
      ← optionalField LocatedExpression.ofJson? default?⟩
  | _ => none

/-- A macro as data. -/
def Macro.toJson (m : Macro) : Json :=
  .object [("name", .string m.name), ("template", Json.ofOption .string m.template),
    ("params", .array (m.parameters.map Parameter.toJson)),
    ("body", .array (Operation.toJsonAll m.body)), ("location", m.location.toJson)]

/-- The macro that data stands for. -/
def Macro.ofJson? (j : Json) : Option Macro := do
  match ← record? ["name", "template", "params", "body", "location"] j with
  | [name, template, parameters, body, location] =>
    return ⟨← required Json.text? name, ← optionalField Json.text? template,
      ← required (listOf? Parameter.ofJson?) parameters, ← required Block.ofJson? body,
      ← required Location.ofJson? location⟩
  | _ => none

/-- Places of macros as data. -/
def macroNamesToJson (names : Fields (Fields Nat)) : Json :=
  .object (names.map fun under =>
    (under.1, .object (under.2.map fun entry => (entry.1, .int entry.2))))

/-- The places of macros that data stands for. -/
def macroNamesOfJson? (j : Json) : Option (Fields (Fields Nat)) :=
  let places := fun (j : Json) => Fields.ofList <$> Json.mapOf? Json.nat? j
  Fields.ofList <$> Json.mapOf? places j

/-- A program as data. -/
def Program.toJson (program : Program) : Json :=
  .object [("body", .array (Operation.toJsonAll program.body)),
    ("macros", .array (program.macros.map Macro.toJson)),
    ("namespaces", macroNamesToJson program.namespaces)]

/-- The program that data stands for. -/
def Program.ofJson? (j : Json) : Option Program := do
  match ← record? ["body", "macros", "namespaces"] j with
  | [body, macros, names] =>
    return ⟨← required Block.ofJson? body, ← required (listOf? Macro.ofJson?) macros,
      ← required macroNamesOfJson? names⟩
  | _ => none

end MarkupTemplate
