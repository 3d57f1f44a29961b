import MarkupTemplate.Text.Split

/-!
# Namespaces

A scope binds prefixes to namespaces; the empty prefix holds the default namespace. An element opens
a scope that extends its parent's by the element's `xmlns` declarations. A name is resolved to a
qualified name, or refused with the prefix that is not bound.
-/

namespace MarkupTemplate

open Text

/-- A name with the namespace it belongs to. -/
structure QName where
  space : Option String
  name : String
  deriving DecidableEq, Repr, Inhabited

namespace QName

/-- The name belongs to `space`. -/
def isIn (q : QName) (space : String) : Bool :=
  q.space == some space

/-- The namespace in braces before the name. -/
def text (q : QName) : String :=
  match q.space with
  | some space => "\x7b" ++ space ++ "\x7d" ++ q.name
  | none => q.name

end QName

/-- The namespace of the attribute directives. -/
def talSpace : String := "http://xml.zope.org/namespaces/tal"

/-- The namespace of the macro directives. -/
def metalSpace : String := "http://xml.zope.org/namespaces/metal"

/-- The namespace that the prefix `xml` is bound to. -/
def xmlSpace : String := "http://www.w3.org/XML/1998/namespace"

/-- The namespace of namespace declarations. -/
def xmlnsSpace : String := "http://www.w3.org/2000/xmlns/"

/-- Prefix and local part, cut at the first colon; a name with an empty part has no prefix. -/
def splitQualified (name : String) : Option String × String :=
  match splitFirst ':' name.toList with
  | some (front, rest) =>
    if front.isEmpty || rest.isEmpty then (none, name)
    else (some (String.ofList front), String.ofList rest)
  | none => (none, name)

/-- Prefix bindings in effect, the latest one first. -/
structure NamespaceScope where
  bindings : List (String × String)
  deriving DecidableEq, Repr, Inhabited

namespace NamespaceScope

/-- The scope around a document. -/
def root : NamespaceScope :=
  ⟨[("tal", talSpace), ("metal", metalSpace), ("xml", xmlSpace)]⟩

/-- The scope with one more binding, which hides an older one of the same prefix. -/
def bind (scope : NamespaceScope) (name space : String) : NamespaceScope :=
  ⟨(name, space) :: scope.bindings⟩

/-- The namespace bound to a prefix. -/
def lookup (scope : NamespaceScope) (name : String) : Option String :=
  scope.bindings.lookup name

/-- The prefix that an attribute declares, if it is a declaration. -/
def declared? (name : String) : Option String :=
  if name = "xmlns" then some ""
  else (dropStart? "xmlns:".toList name.toList).map String.ofList

/-- The scope with the declaration that an attribute makes, if it makes one. -/
def declare (scope : NamespaceScope) (written : String × String) : NamespaceScope :=
  match declared? written.1 with
  | some name => scope.bind name written.2
  | none => scope

/-- The scope that an element with these attributes opens. -/
def child (scope : NamespaceScope) (attributes : List (String × String)) : NamespaceScope :=
  attributes.foldl declare scope

/-- The namespace of names without a prefix. -/
def default? (scope : NamespaceScope) : Option String :=
  (scope.lookup "").filter (· ≠ "")

/-- The qualified name that a written name stands for, or the prefix that is not bound. -/
def resolve (scope : NamespaceScope) (name : String) : Except String QName :=
  if name = "xmlns" then .ok ⟨some xmlnsSpace, "xmlns"⟩
  else
    match splitQualified name with
    | (some front, rest) =>
      if front = "xmlns" then .ok ⟨some xmlnsSpace, rest⟩
      else
        match scope.lookup front with
        | some space => .ok ⟨some space, rest⟩
        | none => .error front
    | (none, rest) => .ok ⟨scope.default?, rest⟩

end NamespaceScope

end MarkupTemplate
