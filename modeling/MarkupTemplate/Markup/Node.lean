import MarkupTemplate.Markup.Location
import MarkupTemplate.Markup.Namespace

/-!
# The tree of a markup source

An element has a start tag, children and perhaps an end tag; every other node is kept as it was
written. Writing a tree back gives the text it was read from.
-/

namespace MarkupTemplate

/-- The kinds of nodes that are no elements. -/
inductive MarkupKind where
  | text
  | comment
  | cdata
  | declaration
  | instruction
  deriving DecidableEq, Repr, Inhabited

/-- An attribute of a start tag. -/
structure Attribute where
  name : QName
  /-- The name as written, with its prefix. -/
  rawName : String
  /-- The blanks before the attribute. -/
  leading : String
  equals : Option String
  /-- The value as written, without quotes and still escaped. -/
  value : Option String
  quote : Option Char
  location : Location
  deriving DecidableEq, Repr, Inhabited

/-- Name and value of an attribute behind the blanks before it, as they stand in a tag. A value
without an equals sign of its own gets one. -/
def attributeSource (leading name : String) (equals value : Option String)
    (quote : Option Char) : String :=
  match value with
  | none => leading ++ name
  | some value =>
    let mark := (quote.map Char.toString).getD ""
    leading ++ name ++ equals.getD "=" ++ mark ++ value ++ mark

/-- The attribute as it stands in its tag. -/
def Attribute.source (a : Attribute) : String :=
  attributeSource a.leading a.rawName a.equals a.value a.quote

/-- A start or empty tag. -/
structure StartTag where
  name : QName
  rawName : String
  attributes : List Attribute
  /-- The closing bracket with a slash and blanks before it. -/
  close : String
  text : String
  selfClosing : Bool
  location : Location
  deriving DecidableEq, Repr, Inhabited

/-- An end tag. -/
structure EndTag where
  name : QName
  rawName : String
  text : String
  location : Location
  deriving DecidableEq, Repr, Inhabited

/-- A node of the tree. -/
inductive Node where
  | markup (kind : MarkupKind) (text : String) (location : Location)
  /-- An element; it has no end tag if it closes itself or is never closed. -/
  | element (start : StartTag) (children : List Node) (closing : Option EndTag)
  deriving Inhabited

namespace Node

mutual

/-- The source of a node. -/
def source : Node → String
  | markup _ text _ => text
  | element start children closing =>
    start.text ++ sourceAll children ++ (closing.map EndTag.text).getD ""

/-- The source of nodes in order. -/
def sourceAll : List Node → String
  | [] => ""
  | node :: nodes => node.source ++ sourceAll nodes

end

end Node

/-- A markup source as a tree. -/
structure Document where
  nodes : List Node
  filename : Option String
  deriving Inhabited

/-- The text that a document was read from. -/
def Document.source (d : Document) : String :=
  Node.sourceAll d.nodes

end MarkupTemplate
