import MarkupTemplate.Markup.Fault
import MarkupTemplate.Markup.Node
import MarkupTemplate.Markup.Token

/-!
# From tokens to trees

Tokens are appended to a working list while a stack records every open start tag. An end tag closes
the nearest open start tag of its qualified name and takes everything behind it as children; start
tags passed over on the way become elements without an end tag and without children. An end tag's name
is resolved in the scope of the innermost open element.

`scanAttributes` lists the attributes of all tags without a tree.
-/

namespace MarkupTemplate

/-- Resolves the name that a token holds. -/
def resolveName (scope : NamespaceScope) (name : Token) : Except MarkupFault QName :=
  match scope.resolve name.text with
  | .ok q => .ok q
  | .error front => .error ⟨.undefinedPrefix front, name.location, name.text⟩

/-- An attribute with its name resolved. -/
def resolveAttribute (scope : NamespaceScope) (a : AttributeToken) :
    Except MarkupFault Attribute := do
  let name ← resolveName scope a.name
  return {
    name
    rawName := a.name.text
    leading := a.leading
    equals := a.equals
    value := a.value.map Token.text
    quote := a.quote
    location := a.name.location }

/-- The scope that a start or empty tag opens. -/
def openedScope (parent : NamespaceScope) (attributes : List AttributeToken) : NamespaceScope :=
  parent.child (attributes.map fun a => (a.name.text, (a.value.map Token.text).getD ""))

/-- A start or empty tag with its names resolved, and the scope it opens. Attributes are resolved
before the tag's own name. -/
def startTag (token : Token) (parent : NamespaceScope) :
    Except MarkupFault (StartTag × NamespaceScope) :=
  match token.tagName? with
  | none => .error ⟨.malformedTag, token.location, token.text⟩
  | some rawName => do
    let scope := openedScope parent token.attributes
    let attributes ← token.attributes.mapM (resolveAttribute scope)
    let name ← resolveName scope rawName
    return ({
      name
      rawName := rawName.text
      attributes
      close := token.tagClose
      text := token.text
      selfClosing := token.kind == .emptyTag
      location := token.location }, scope)

/-- An entry of the working list: a finished node or a start tag that is still open. -/
inductive Entry where
  | node (n : Node)
  | openTag (start : StartTag)
  deriving Inhabited

/-- A start tag that is never closed is an element without children. -/
def Entry.toNode : Entry → Node
  | node n => n
  | openTag start => .element start [] none

/-- The state of the builder. -/
structure Builder where
  /-- The working list, the latest entry first. -/
  entries : List Entry
  /-- Names of the open start tags with their places in the working list, the innermost first. -/
  openTags : List (QName × Nat)
  /-- The scopes in effect, the innermost first; the last one is the root. -/
  scopes : List NamespaceScope
  deriving Inhabited

namespace Builder

/-- Nothing read yet. -/
def initial : Builder := ⟨[], [], [.root]⟩

/-- The scope of the innermost open element. -/
def scope (b : Builder) : NamespaceScope :=
  b.scopes.head?.getD .root

/-- The builder with one more finished node. -/
def add (b : Builder) (n : Node) : Builder :=
  { b with entries := .node n :: b.entries }

/-- The builder after a start tag. -/
def openTag (b : Builder) (start : StartTag) (scope : NamespaceScope) : Builder where
  entries := .openTag start :: b.entries
  openTags := (start.name, b.entries.length) :: b.openTags
  scopes := scope :: b.scopes

/-- The builder after an end tag. -/
def closeTag (b : Builder) (token : Token) : Except MarkupFault Builder :=
  let unexpected : MarkupFault := ⟨.unexpectedEndTag, token.location, token.text⟩
  match b.scopes with
  | scope :: outer :: outermost =>
    match token.tagName? with
    | none => .error unexpected
    | some rawName => do
      let name ← resolveName scope rawName
      match b.openTags.dropWhile (·.1 != name) with
      | [] => .error unexpected
      | (_, position) :: openTags =>
        let inside := b.entries.length - (position + 1)
        match b.entries.drop inside with
        | .openTag start :: before =>
          let children := (b.entries.take inside).reverse.map Entry.toNode
          let closing : EndTag := ⟨name, rawName.text, token.text, token.location⟩
          let scopes := outer :: outermost
          return {
            entries := .node (.element start children (some closing)) :: before
            openTags
            scopes := scopes.drop (scopes.length - (openTags.length + 1)) }
        | _ => .error unexpected
  | _ => .error unexpected

/-- The builder after one more token. -/
def step (b : Builder) (token : Token) : Except MarkupFault Builder :=
  match token.kind with
  | .startTag => do
    let (start, scope) ← startTag token b.scope
    return b.openTag start scope
  | .emptyTag => do
    let (start, _) ← startTag token b.scope
    return b.add (.element start [] none)
  | .endTag => b.closeTag token
  | .malformed => .error ⟨.malformedMarkup, token.location, token.text⟩
  | .text => return b.add (.markup .text token.text token.location)
  | .comment => return b.add (.markup .comment token.text token.location)
  | .cdata => return b.add (.markup .cdata token.text token.location)
  | .declaration | .xmlDeclaration => return b.add (.markup .declaration token.text token.location)
  | .instruction => return b.add (.markup .instruction token.text token.location)

/-- The nodes of the working list. -/
def nodes (b : Builder) : List Node :=
  b.entries.reverse.map Entry.toNode

end Builder

namespace Document

/-- The tree of a token sequence. -/
def ofTokens (tokens : List Token) (filename : Option String) : Except MarkupFault Document := do
  let b ← tokens.foldlM Builder.step .initial
  return ⟨b.nodes, filename⟩

/-- The tree of a markup source. -/
def parse (source : String) (filename : Option String) : Except MarkupFault Document :=
  ofTokens (Token.scan source filename) filename

/-- A source that is text alone. -/
def ofText (source : String) (filename : Option String) : Document :=
  ⟨(Token.scanText source filename).map fun t => .markup .text t.text t.location, filename⟩

end Document

/-! ### Attributes without a tree -/

/-- An attribute with the name of its element. -/
structure ScannedAttribute where
  element : QName
  name : QName
  rawName : String
  value : Option String
  location : Location
  deriving DecidableEq, Repr

/-- The attributes of a tag, as the scan lists them. -/
def StartTag.scanned (start : StartTag) : List ScannedAttribute :=
  start.attributes.map fun a => ⟨start.name, a.name, a.rawName, a.value, a.location⟩

/-- One token of the scan: the scopes after it and the attributes found so far. An end tag leaves the
innermost scope whatever its name; malformed markup is passed over. -/
def scanStep (state : List NamespaceScope × List ScannedAttribute) (token : Token) :
    Except MarkupFault (List NamespaceScope × List ScannedAttribute) :=
  match token.kind with
  | .startTag => do
    let (start, scope) ← startTag token (state.1.head?.getD .root)
    return (scope :: state.1, state.2 ++ start.scanned)
  | .emptyTag => do
    let (start, _) ← startTag token (state.1.head?.getD .root)
    return (state.1, state.2 ++ start.scanned)
  | .endTag => return (if 1 < state.1.length then state.1.tail else state.1, state.2)
  | _ => return state

/-- The attributes of all start and empty tags of a source, in order. -/
def scanAttributes (source : String) (filename : Option String) :
    Except MarkupFault (List ScannedAttribute) := do
  let state ← (Token.scan source filename).foldlM scanStep ([.root], [])
  return state.2

end MarkupTemplate
