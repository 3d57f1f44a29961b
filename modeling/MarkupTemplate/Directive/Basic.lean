import MarkupTemplate.Directive.Kind
import MarkupTemplate.Markup.Node
import MarkupTemplate.Template.Fault

/-!
# The directives of an element

Directives are attributes in the namespaces of TAL and METAL; on elements of those namespaces,
attributes without a prefix are directives too. Each directive stands at most once on an element. They
are collected with their arguments, those of TAL in the order of execution.
-/

namespace MarkupTemplate

/-- A directive with its argument, in which references are replaced. -/
structure Directive (κ : Type) where
  kind : κ
  argument : String
  location : Location
  deriving DecidableEq, Repr, Inhabited

/-- The two languages of directives. -/
inductive DirectiveLanguage where
  | tal
  | metal
  deriving DecidableEq, Repr, Inhabited

/-- The language that a name's namespace belongs to. -/
def QName.language? (q : QName) : Option DirectiveLanguage :=
  if q.isIn talSpace then some .tal
  else if q.isIn metalSpace then some .metal
  else none

namespace StartTag

/-- The language of an attribute, if it is a directive. -/
def language? (start : StartTag) (a : Attribute) : Option DirectiveLanguage :=
  match a.name.language? with
  | some language => some language
  | none => if a.rawName.toList.contains ':' then none else start.name.language?

/-- The attribute never reaches the output: it is a directive or declares a namespace of directives. -/
def strips (start : StartTag) (a : Attribute) : Bool :=
  (start.language? a).isSome ||
    (a.name.isIn xmlnsSpace && (a.value == some talSpace || a.value == some metalSpace))

/-- The element's own tags never reach the output. -/
def isDirective (start : StartTag) : Bool :=
  start.name.language?.isSome

end StartTag

/-- The directives of one element. -/
structure DirectiveSet where
  tal : List (Directive TalKind)
  metal : List (Directive MetalKind)
  deriving DecidableEq, Repr, Inhabited

namespace DirectiveSet

/-- The directive of a kind of TAL. -/
def tal? (set : DirectiveSet) (kind : TalKind) : Option (Directive TalKind) :=
  set.tal.find? (·.kind == kind)

/-- The directive of a kind of METAL. -/
def metal? (set : DirectiveSet) (kind : MetalKind) : Option (Directive MetalKind) :=
  set.metal.find? (·.kind == kind)

/-- There are no directives. -/
def isEmpty (set : DirectiveSet) : Bool :=
  set.tal.isEmpty && set.metal.isEmpty

/-- The argument of an attribute. -/
def argument (a : Attribute) : Except CompileProblem String :=
  match unescape (a.value.getD "") with
  | .ok text => .ok text
  | .error fault => .error (.entity a.rawName fault)

/-- The set with one more directive at its end. -/
def add (set : DirectiveSet) (language : DirectiveLanguage) (a : Attribute) :
    Except CompileProblem DirectiveSet := do
  let text ← argument a
  match language with
  | .tal =>
    match TalKind.parse? a.name.name with
    | none => .error (.unknownTal a.rawName)
    | some kind =>
      if (set.tal? kind).isSome then .error (.duplicateDirective kind.attributeName)
      else .ok ⟨set.tal ++ [⟨kind, text, a.location⟩], set.metal⟩
  | .metal =>
    match MetalKind.parse? a.name.name with
    | none => .error (.unknownMetal a.rawName)
    | some kind =>
      if (set.metal? kind).isSome then .error (.duplicateDirective kind.attributeName)
      else .ok ⟨set.tal, set.metal ++ [⟨kind, text, a.location⟩]⟩

/-- The set with the directive that an attribute is, if it is one. -/
def addAttribute (start : StartTag) (set : DirectiveSet) (a : Attribute) :
    Except TemplateFault DirectiveSet :=
  match start.language? a with
  | some language => CompileProblem.located a.location (set.add language a)
  | none => .ok set

/-- The directives of TAL in the order of execution. -/
def inOrder (tal : List (Directive TalKind)) : List (Directive TalKind) :=
  tal.mergeSort fun d e => d.kind.priority ≤ e.kind.priority

/-- The directives of an element. -/
def ofTag (start : StartTag) : Except TemplateFault DirectiveSet := do
  let set ← start.attributes.foldlM (addAttribute start) ⟨[], []⟩
  if (set.tal? .content).isSome && (set.tal? .replace).isSome then
    .error (.compile .contentAndReplace (some start.location))
  else return ⟨inOrder set.tal, set.metal⟩

end DirectiveSet

end MarkupTemplate
