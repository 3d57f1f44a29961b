import MarkupTemplate.Compile.Block
import MarkupTemplate.Compile.Registry

/-!
# From trees to blocks

Each node gives operations in document order. An element's content and tags come first; its repetition,
condition, definitions and failure handler are wrapped around them in this order. A macro definition
met outside its own body becomes a call, a use of a macro a call with fills, a slot an operation of its
own.
-/

namespace MarkupTemplate

/-- What is known while blocks are built. -/
structure BuildContext where
  registry : MacroRegistry
  /-- The parameters of each macro. -/
  parameters : List (List Parameter)
  unit : Nat
  /-- The offset of the element that defines the macro being built. -/
  root : Option Nat

/-- What a use of a macro fills: slots with blocks, parameters with values. -/
structure Fills where
  slots : List (String × Block)
  arguments : List (String × Argument)
  deriving Inhabited

namespace DirectiveSet

/-- What a directive's argument says, or `absent` without the directive. -/
def read {α : Type} (set : DirectiveSet) (kind : TalKind) (absent : α)
    (parse : String → Location → Except CompileProblem α) : Except TemplateFault α :=
  match set.tal? kind with
  | some d => CompileProblem.located d.location (parse d.argument d.location)
  | none => .ok absent

/-- A block wrapped by a directive, if it is there. -/
def wrapBy {α : Type} (set : DirectiveSet) (kind : TalKind)
    (parse : String → Location → Except CompileProblem α) (wrap : α → Block → Block)
    (block : Block) : Except TemplateFault Block :=
  set.read kind block fun argument location => (wrap · block) <$> parse argument location

/-- The definitions around a block, in a frame of their own. -/
def inScope (definitions : List Directive.Definition) (block : Block) : Block :=
  .pushScope :: definitions.map (fun d => .define d.kind d.name d.value) ++ block ++ [.popScope]

/-- A block with the element's repetition, condition, definitions and failure handler around it. -/
def wrap (set : DirectiveSet) (block : Block) : Except TemplateFault Block := do
  let block ← set.wrapBy .loop Directive.loop (fun (name, items) body => [.repeat name items body])
    block
  let block ← set.wrapBy .condition (fun argument => Directive.expression argument.toList)
    (fun test body => [.condition test body]) block
  let block ← set.wrapBy .define Directive.definitions inScope block
  set.wrapBy .onError Directive.handler
    (fun (asMarkup, value) body => [.onError body value asMarkup]) block

/-- The directive that gives the element's content. -/
def content? (set : DirectiveSet) : Option (Directive TalKind) :=
  (set.tal? .content).or (set.tal? .replace)

end DirectiveSet

/-- An attribute as it is carried over. -/
def Attribute.carried (a : Attribute) : StaticAttribute :=
  ⟨a.rawName, a.leading, a.equals, a.value, a.quote⟩

namespace StartTag

/-- The attributes that reach the output. -/
def carried (start : StartTag) : List StaticAttribute :=
  (start.attributes.filter fun a => !start.strips a).map Attribute.carried

/-- The element is written as it stands. -/
def isPlain (start : StartTag) (set : DirectiveSet) : Bool :=
  set.isEmpty && !start.attributes.any start.strips && !start.isDirective

/-- The tags of an element. A tag that closes itself is opened up for content. -/
def plan (start : StartTag) (closing : Option EndTag) (set : DirectiveSet) :
    Except TemplateFault TagPlan := do
  let computed ← set.read .attributes [] Directive.computedAttributes
  let omission ←
    if start.isDirective then .ok .always else set.read .omitTag .never Directive.omission
  let opens := start.selfClosing && set.content?.isSome
  return {
    name := start.rawName
    attributes := start.carried
    computed
    close := if opens then ">" else start.close
    closing := if opens then some ("</" ++ start.rawName ++ ">") else closing.map EndTag.text
    omission }

/-- An element with its tags and content, given the block of its children. -/
def core (start : StartTag) (closing : Option EndTag) (set : DirectiveSet) (children : Block) :
    Except TemplateFault Block := do
  if start.isPlain set then
    return Block.ofOperations
      (.literal start.text :: children ++ (closing.map fun e => .literal e.text).toList)
  let tag ← start.plan closing set
  match set.content? with
  | none => return tag.wrap children
  | some d => do
    let (asMarkup, value) ← CompileProblem.located d.location
      (Directive.content d.argument d.location)
    if d.kind = .replace then return [.emit value asMarkup (tag.wrap children)]
    else return tag.wrap [.emit value asMarkup children]

end StartTag

namespace Fills

/-- Nothing is filled. -/
def none : Fills := ⟨[], []⟩

/-- The fills with the arguments that stand on an element. -/
def addArguments (fills : Fills) (set : DirectiveSet) : Except TemplateFault Fills :=
  match set.metal? .fillParam with
  | .none => .ok fills
  | some d => do
    let more ← CompileProblem.located d.location (Directive.arguments d.argument d.location)
    return ⟨fills.slots, fills.arguments ++ more⟩

end Fills

namespace BuildContext

/-- The first parameter filled that a macro does not have. -/
def unknownArgument? (context : BuildContext) (id : Nat) (arguments : List (String × Argument)) :
    Option String :=
  let known := context.parameters[id]?.getD []
  (arguments.map (·.1)).find? fun name => !known.any (·.name == name)

/-- The name of a macro. -/
def macroName (context : BuildContext) (id : Nat) : String :=
  (context.registry.definitions[id]?.map MacroDefinition.name).getD ""

/-- The call of a macro, given what the children of the element fill. -/
def call (context : BuildContext) (set : DirectiveSet) (use : Directive MetalKind)
    (children : Fills → Except TemplateFault Fills) : Except TemplateFault Block := do
  let e ← CompileProblem.located use.location
    (Directive.expression use.argument.toList use.location)
  let id? ← context.registry.resolve? context.unit e.expression use.location
  let fills ← Fills.none.addArguments set
  let fills ← children fills
  match id? with
  | none => return [.callMacro (.computed e) fills.slots fills.arguments use.location]
  | some id =>
    match context.unknownArgument? id fills.arguments with
    | some name => .error (.macros (.noSuchParameter (context.macroName id) name) use.location)
    | none => return [.callMacro (.known id) fills.slots fills.arguments use.location]

/-- A macro definition that stands in the place of a call. -/
def callInPlace (context : BuildContext) (location : Location) : Except TemplateFault Block :=
  match context.registry.definitionAt? context.unit location.offset with
  | some id => .ok [.callMacro (.known id) [] [] location]
  | none => .error (.macros .unregistered location)

/-- The slot that a directive opens around a block. -/
def slot (d : Directive MetalKind) (block : Block) : Except TemplateFault Block :=
  let name := Text.trimString d.argument
  if name = "" then .error (.compile .unnamedSlot (some d.location))
  else .ok [.slot name block]

/-- An element, given the block of its children and what they fill. -/
def element (context : BuildContext) (start : StartTag) (closing : Option EndTag)
    (children : Unit → Except TemplateFault Block)
    (fills : Fills → Except TemplateFault Fills) : Except TemplateFault Block := do
  let set ← DirectiveSet.ofTag start
  if (set.metal? .defineMacro).isSome && context.root != some start.location.offset then
    context.callInPlace start.location
  else
    let misplaced := (set.metal? .defineParam).filter fun _ => context.root.isNone
    match misplaced with
    | some d => .error (.compile .parameterOutsideMacro (some d.location))
    | none =>
      let block ← match set.metal? .useMacro with
        | some use => context.call set use fills
        | none => do start.core closing set (← children ())
      let block ← set.wrap block
      match set.metal? .defineSlot with
      | some d => slot d block
      | none => return block

mutual

/-- The block of a node. -/
def node (context : BuildContext) : Node → Except TemplateFault Block
  | .markup _ text _ => .ok [.literal text]
  | .element start children closing =>
    context.element start closing (fun _ => Block.ofOperations <$> context.operations children)
      (fun found => context.fillsOf found children)

/-- The operations of nodes in order. -/
def operations (context : BuildContext) : List Node → Except TemplateFault (List Operation)
  | [] => .ok []
  | n :: ns => do
    let first ← context.node n
    let others ← context.operations ns
    return first ++ others

/-- What a node below a use of a macro fills. The first fill of a slot counts. What fills a slot and
what uses another macro is not searched. -/
def fillsOfNode (context : BuildContext) (found : Fills) : Node → Except TemplateFault Fills
  | .markup .. => .ok found
  | .element start children closing => do
    let set ← DirectiveSet.ofTag start
    let found ← found.addArguments set
    match set.metal? .fillSlot with
    | some d =>
      let name := Text.trimString d.argument
      if found.slots.any (·.1 == name) then return found
      else do
        let body ← context.element start closing
          (fun _ => Block.ofOperations <$> context.operations children)
          (fun found => context.fillsOf found children)
        return ⟨found.slots ++ [(name, body)], found.arguments⟩
    | none =>
      if (set.metal? .useMacro).isSome then return found
      else context.fillsOf found children

/-- What nodes below a use of a macro fill. -/
def fillsOf (context : BuildContext) (found : Fills) : List Node → Except TemplateFault Fills
  | [] => .ok found
  | n :: ns => do
    let found ← context.fillsOfNode found n
    context.fillsOf found ns

end

/-- The block of nodes in order. -/
def nodes (context : BuildContext) (ns : List Node) : Except TemplateFault Block :=
  Block.ofOperations <$> context.operations ns

end BuildContext

end MarkupTemplate
