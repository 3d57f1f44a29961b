import MarkupTemplate.Text.Split

/-!
# Paths of imports

An import names a template absolutely, by a URI, or relative to the template that imports it. Relative
paths lose empty parts and single points, and each double point takes back the part before it.
-/

namespace MarkupTemplate

open Text

/-- The parts between slashes that say something. -/
def pathParts (path : List Char) : List (List Char) :=
  (splitAll '/' path).filter fun part => !part.isEmpty && part != ['.']

/-- The parts with one more, the last one first; a double point takes the last one back. -/
def addPart (parts : List (List Char)) (part : List Char) : List (List Char) :=
  if part = ['.', '.'] then parts.tail else part :: parts

/-- The path of parts without double points. -/
def writePath (rooted : Bool) (parts : List (List Char)) : String :=
  let path := ['/'].intercalate (parts.foldl addPart []).reverse
  String.ofList (if rooted then '/' :: path else path)

/-- The path begins at the root. -/
def isRooted (path : List Char) : Bool :=
  path.head? == some '/'

/-- A path in its plain form. -/
def normalizePath (path : String) : String :=
  writePath (isRooted path.toList) (pathParts path.toList)

/-- The path stands for itself wherever it is written. -/
def isAbsolute (path : List Char) : Bool :=
  isRooted path || occursIn "://".toList path

/-- The path that `href` means in the template at `base`. -/
def resolveUri (href : String) (base : Option String) : String :=
  if isAbsolute href.toList then href
  else
    match base with
    | none => normalizePath href
    | some base =>
      let parts := pathParts base.toList
      writePath (isRooted base.toList && !parts.isEmpty) (parts.dropLast ++ pathParts href.toList)

end MarkupTemplate
