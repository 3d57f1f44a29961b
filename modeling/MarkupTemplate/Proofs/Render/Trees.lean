import MarkupTemplate.Proofs.Compile.Steps
import MarkupTemplate.Proofs.Render.Meaning
import MarkupTemplate.Render.Template

/-!
# Meaning of trees

What a tree of markup means, read off its nodes without a program. A node that is no element means its
source. An element means what its directives of TAL say, from the outermost to the innermost: the failure
handler, the definitions in a frame of their own, the condition, the repetition, the replacement, and at
last the tags around the content. A frame is left however the part inside it ends.
-/

namespace MarkupTemplate

/-- What the directives of TAL on an element say. -/
structure Tal where
  handler? : Option (Bool × LocatedExpression)
  definitions? : Option (List Directive.Definition)
  condition? : Option LocatedExpression
  loop? : Option (String × LocatedExpression)
  replacement? : Option (Bool × LocatedExpression)
  content? : Option (Bool × LocatedExpression)
  computed : List ComputedAttribute
  omission : Omission

namespace StartTag

variable (start : StartTag)

/-- What the argument of a directive on the tag says, if the directive is there. -/
def said? {α : Type} (kind : TalKind) (parse : String → Location → Except CompileProblem α) :
    Option α :=
  (DirectiveSet.ofTag start).toOption.bind (·.said? kind parse)

/-- What the directives on the tag say. The tags of directive elements are always left out. -/
def tal : Tal where
  handler? := start.said? .onError Directive.handler
  definitions? := start.said? .define Directive.definitions
  condition? := start.said? .condition fun argument => Directive.expression argument.toList
  loop? := start.said? .loop Directive.loop
  replacement? := start.said? .replace Directive.content
  content? := start.said? .content Directive.content
  computed := (start.said? .attributes Directive.computedAttributes).getD []
  omission :=
    if start.isDirective then .always
    else (start.said? .omitTag Directive.omission).getD .never

/-- Nothing on the tag is kept from the output. -/
def isKept : Bool :=
  !start.attributes.any start.strips && !start.isDirective

/-- The tag closes itself, but has to take content. -/
def opens : Bool :=
  start.selfClosing && (start.tal.content?.or start.tal.replacement?).isSome

/-- The text of the start tag with computed values. -/
def written (format : ValueFormatter) (values : ComputedValues) : String :=
  if start.isKept then start.text
  else
    let (attributes, left) := writeAttributes format values start.carried
    "<" ++ start.rawName ++ attributes ++ String.join (left.map (newAttribute format)) ++
      if start.opens then ">" else start.close

/-- The text of the end tag. -/
def ending (closing : Option EndTag) : String :=
  if start.opens then "</" ++ start.rawName ++ ">" else (closing.map EndTag.text).getD ""

end StartTag

namespace Meaning

variable (context : RenderContext)

/-- A part in a new innermost frame, which is left however the part ends. -/
def framed (m : Meaning) : Meaning := ⟨fun σ =>
  match m.run σ.push with
  | .done s τ => .done s τ.pop
  | .failed fault τ => .failed fault τ.pop
  | .exhausted => .exhausted⟩

/-- Definitions in order. -/
def definitions : List Directive.Definition → Meaning
  | [] => text ""
  | d :: ds => define context d.kind d.name d.value ++ definitions ds

/-- The tags of an element around its content, unless they are left out. -/
def tagged (start : StartTag) (closing : Option EndTag) (content : Meaning) : Meaning := do
  let omitted ← Run.read (context.omits · start.tal.omission)
  if omitted then content
  else do
    let values ← Run.read (context.computedValues · [] start.tal.computed)
    text (start.written context.format values) ++ content ++ text (start.ending closing)

/-- What a directive says around a part, which stands by itself without the directive. -/
def around {α : Type} (said? : Option α) (wrap : α → Meaning → Meaning) (m : Meaning) : Meaning :=
  said?.elim m (wrap · m)

/-- What an element means around the meaning of its children. -/
def ofElement (start : StartTag) (closing : Option EndTag) (children : Meaning) : Meaning :=
  let tal := start.tal
  around tal.handler? (fun (asMarkup, e) => guard context (fun _ behind => behind) e asMarkup) <|
  around tal.definitions? (fun ds m => framed (definitions context ds ++ m)) <|
  around tal.condition? (condition context) <|
  around tal.loop? (fun (name, items) => loop context framed name items) <|
  around tal.replacement? (fun (asMarkup, e) => valueOr context e asMarkup) <|
  tagged context start closing <|
  around tal.content? (fun (asMarkup, e) => valueOr context e asMarkup) children

mutual

/-- The meaning of a node. -/
def ofNode : Node → Meaning
  | .markup _ source _ => text source
  | .element start children closing => ofElement context start closing (ofNodes children)

/-- The meaning of nodes in order. -/
def ofNodes : List Node → Meaning
  | [] => text ""
  | n :: ns => ofNode n ++ ofNodes ns

end

end Meaning

namespace Node

mutual

/-- The start tags of a node. -/
def starts : Node → List StartTag
  | .markup .. => []
  | .element start children _ => start :: startsOf children

/-- The start tags of nodes in document order. -/
def startsOf : List Node → List StartTag
  | [] => []
  | n :: ns => n.starts ++ startsOf ns

end

end Node

/-- No attribute is a directive of METAL. -/
def StartTag.IsMacroFree (start : StartTag) : Prop :=
  ∀ a ∈ start.attributes, start.language? a ≠ some .metal

/-- No element carries a directive of METAL. -/
def Document.IsMacroFree (document : Document) : Prop :=
  ∀ start ∈ Node.startsOf document.nodes, start.IsMacroFree

instance (start : StartTag) : Decidable start.IsMacroFree :=
  inferInstanceAs (Decidable (∀ a ∈ start.attributes, start.language? a ≠ some .metal))

instance (document : Document) : Decidable document.IsMacroFree :=
  inferInstanceAs (Decidable (∀ start ∈ Node.startsOf document.nodes, start.IsMacroFree))

/-- The text of a template as its tree means it. -/
def Template.evaluateTree (template : Template) (document : Document) (format : ValueFormatter)
    (globals : Frame) : Except RenderFault String :=
  match template.rootFrame globals with
  | .error fault => .error fault
  | .ok frame =>
    match (Meaning.ofNodes (template.context format) document.nodes).run (.ofGlobals frame) with
    | .done text _ => .ok text
    | .failed fault _ => .error fault
    | .exhausted => .error ⟨.tooDeep, none⟩

end MarkupTemplate
