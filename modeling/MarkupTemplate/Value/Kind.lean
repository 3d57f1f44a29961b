/-!
# Kinds of values and declared types

Every value is of one of nine kinds. A parameter or a global variable may be declared with one of
seven types, each under several names.
-/

namespace MarkupTemplate

/-- The kinds of values. -/
inductive ValueKind where
  | nothing
  | default
  | bool
  | int
  | float
  | string
  | list
  | map
  | handle
  deriving DecidableEq, Repr, Inhabited

/-- The name of a kind, as messages give it. -/
def ValueKind.name : ValueKind → String
  | nothing => "nothing"
  | default => "default"
  | bool => "bool"
  | int => "int"
  | float => "float"
  | string => "string"
  | list => "list"
  | map => "map"
  | handle => "macro"

/-- The types that a declaration can ask for. -/
inductive TypeTag where
  | int
  | float
  | str
  | bool
  | list
  | map
  | any
  deriving DecidableEq, Repr, Inhabited

namespace TypeTag

/-- The name of a type, as messages and stored programs give it. -/
def name : TypeTag → String
  | int => "Int"
  | float => "Float"
  | str => "Str"
  | bool => "Bool"
  | list => "List"
  | map => "Map"
  | any => "Any"

/-- The type that a declaration names. -/
def parse? (text : String) : Option TypeTag :=
  match text with
  | "int" | "integer" => some int
  | "float" | "number" => some float
  | "str" | "string" | "text" => some str
  | "bool" | "boolean" => some bool
  | "list" | "sequence" => some list
  | "map" | "dict" => some map
  | "any" | "object" => some any
  | _ => none

end TypeTag

end MarkupTemplate
