import MarkupTemplate.Compile.Builder
import MarkupTemplate.Template.Mode

/-!
# Compiling templates

A template is parsed, its macros and those of its imports are registered, and the blocks of all macros
and of the main template are built. A template read as text is a program that writes it.
-/

namespace MarkupTemplate

namespace Element

/-- The parameters found and those that a directive declares. -/
def declare (found : List Parameter) (d : Directive MetalKind) :
    Except TemplateFault (List Parameter) := do
  let declared ← CompileProblem.located d.location (Directive.parameters d.argument d.location)
  declared.foldlM (fun found p =>
    if found.any (·.name == p.name) then
      .error (.compile (.duplicateParameter p.name) (some d.location))
    else .ok (found ++ [p])) found

/-- The parameters found and those that an element's directives declare. -/
def declareAll (found : List Parameter) (set : DirectiveSet) :
    Except TemplateFault (List Parameter) :=
  match set.metal? .defineParam with
  | some d => declare found d
  | none => .ok found

mutual

/-- The parameters found and those that a node declares, but not in other macros. -/
def parametersOfNode (found : List Parameter) : Node → Except TemplateFault (List Parameter)
  | .markup .. => .ok found
  | .element start children _ => do
    let set ← DirectiveSet.ofTag start
    if (set.metal? .defineMacro).isSome then return found
    else
      let found ← declareAll found set
      parametersBelow found children

/-- The parameters found and those that nodes declare. -/
def parametersBelow (found : List Parameter) : List Node → Except TemplateFault (List Parameter)
  | [] => .ok found
  | n :: ns => do
    let found ← parametersOfNode found n
    parametersBelow found ns

end

/-- The parameters of the macro that an element defines. -/
def parameters (element : Element) : Except TemplateFault (List Parameter) := do
  let set ← DirectiveSet.ofTag element.start
  parametersBelow (← declareAll [] set) element.children

end Element

namespace MacroRegistry

/-- A macro with its block. -/
def build (r : MacroRegistry) (parameters : List (List Parameter))
    (definition : MacroDefinition × List Parameter) : Except TemplateFault Macro := do
  let (d, declared) := definition
  let context : BuildContext := ⟨r, parameters, d.unit, some d.location.offset⟩
  let body ← context.element d.element.start d.element.closing
    (fun _ => context.nodes d.element.children)
    (fun found => context.fillsOf found d.element.children)
  return {
    name := d.name
    template := if d.unit = 0 then none else r.path? d.unit
    parameters := declared
    body
    location := d.location }

end MacroRegistry

namespace Program

/-- The program of a template's tree. -/
def ofDocument (provider : ResourceProvider) (document : Document) (path : Option String) :
    Except TemplateFault Program := do
  let r ← MacroRegistry.ofMain provider document path
  let parameters ← r.definitions.mapM fun d => d.element.parameters
  let macros ← (r.definitions.zip parameters).mapM (r.build parameters)
  let context : BuildContext := ⟨r, parameters, 0, none⟩
  let body ← context.nodes document.nodes
  return ⟨body, macros, r.names 0⟩

/-- The program that writes a text. -/
def ofText (source : String) : Program :=
  ⟨if source.isEmpty then [] else [.literal source], [], []⟩

/-- The program of a template. -/
def compile (provider : ResourceProvider) (mode : TemplateMode) (source : TemplateSource) :
    Except TemplateFault Program :=
  match mode with
  | .text => .ok (ofText source.text)
  | .markup =>
    match Document.parse source.text source.path with
    | .error fault => .error (.markup fault)
    | .ok document => ofDocument provider document source.path

end Program

end MarkupTemplate
