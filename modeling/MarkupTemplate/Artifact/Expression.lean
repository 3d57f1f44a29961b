import MarkupTemplate.Expression.Basic
import MarkupTemplate.Json.Record
import MarkupTemplate.Markup.Location

/-!
# Stored expressions

Expressions as data, written and read back. Reading recurses on the height of the data.
-/

namespace MarkupTemplate

open Json (variant)

/-- A path as data. -/
def Path.toJson (p : Path) : Json :=
  .object [("root", .string p.root), ("segments", .array (p.segments.map .string))]

/-- The path that data stands for. -/
def Path.ofJson? (j : Json) : Option Path := do
  match ← Json.record? ["root", "segments"] j with
  | [root, segments] =>
    return ⟨← Json.required Json.text? root, ← Json.required (Json.listOf? Json.text?) segments⟩
  | _ => none

/-- A number as data. -/
def Literal.toJson : Literal → Json
  | int n => variant "Int" (.int n.toInt)
  | float x => variant "Float" (.float x)

/-- The number that data stands for. -/
def Literal.ofJson? (j : Json) : Option Literal := do
  match ← Json.variant? j with
  | ("Int", content) => int <$> Json.int64? content
  | ("Float", content) => float <$> Json.float? content
  | _ => none

namespace Expression

mutual

/-- An expression as data. -/
def toJson : Expression → Json
  | path p => variant "Path" p.toJson
  | alternatives es => variant "Alternatives" (.array (toJsonAll es))
  | string parts => variant "String" (.array (toJsonParts parts))
  | not e => variant "Not" e.toJson
  | anyPath paths => variant "Exists" (.array (paths.map Path.toJson))
  | literal l => variant "Literal" l.toJson
  | nothing => .string "Nothing"
  | default => .string "Default"
  | host code => variant "Host" (.string code)

/-- Alternatives as data. -/
def toJsonAll : List Expression → List Json
  | [] => []
  | e :: es => e.toJson :: toJsonAll es

/-- The parts of a text as data. -/
def toJsonParts : List StringPart → List Json
  | [] => []
  | .text s :: parts => variant "Text" (.string s) :: toJsonParts parts
  | .interpolation e :: parts => variant "Interpolation" e.toJson :: toJsonParts parts

end

/-- The part of a text that data stands for, if `read` reads the expressions inside. -/
def readPart (read : Json → Option Expression) (j : Json) : Option StringPart := do
  match ← Json.variant? j with
  | ("Text", content) => .text <$> content.text?
  | ("Interpolation", content) => .interpolation <$> read content
  | _ => none

/-- The expression that data of at most this height stands for. -/
def read : Nat → Json → Option Expression
  | 0, _ => none
  | height + 1, j => do
    match ← Json.variant? j with
    | ("Path", content) => path <$> Path.ofJson? content
    | ("Alternatives", content) => alternatives <$> Json.listOf? (read height) content
    | ("String", content) => string <$> Json.listOf? (readPart (read height)) content
    | ("Not", content) => not <$> read height content
    | ("Exists", content) => anyPath <$> Json.listOf? Path.ofJson? content
    | ("Literal", content) => literal <$> Literal.ofJson? content
    | ("Nothing", .null) => some nothing
    | ("Default", .null) => some default
    | ("Host", content) => host <$> content.text?
    | _ => none

/-- The expression that data stands for. -/
def ofJson? (j : Json) : Option Expression :=
  read j.height j

end Expression

/-- A place as data; the name of its source only if it has one. -/
def Location.toJson (l : Location) : Json :=
  .object ([("line", .int l.line), ("column", .int l.column), ("offset", .int l.offset)] ++
    (l.filename.map fun name => ("filename", Json.string name)).toList)

/-- The place that data stands for; an array may end before the name. -/
def Location.ofJson? (j : Json) : Option Location := do
  let fields ← match j with
    | .array [line, column, offset] => some [some line, some column, some offset, none]
    | _ => Json.record? ["line", "column", "offset", "filename"] j
  match fields with
  | [line, column, offset, filename] =>
    return ⟨⟨← Json.required Json.nat? line, ← Json.required Json.nat? column,
      ← Json.required Json.nat? offset⟩, ← Json.optionalField Json.text? filename⟩
  | _ => none

end MarkupTemplate
