import MarkupTemplate.Artifact.Program
import MarkupTemplate.Json.Reader
import MarkupTemplate.Json.Writer
import MarkupTemplate.Key.Basic
import MarkupTemplate.Render.Template
import MarkupTemplate.Resource.Provider

/-!
# Stored templates

A compiled program is stored with its key, what it is to be run with, and the version of what
generated it.
-/

namespace MarkupTemplate

/-- The version that programs are stamped with. Programs of another version are not used. -/
def generatorVersion : String := "talc-0.1.0/program-1"

/-- A program as it is stored. -/
structure CompiledProgram where
  key : TemplateKey
  program : Program
  generator : String
  requirements : Requirements
  deriving Inhabited

namespace CompiledProgram

open Json (required listOf? mapOf? record?)

/-- A compiled program as data. -/
def toJson (c : CompiledProgram) : Json :=
  .object [("key", .string c.key.text), ("program", c.program.toJson),
    ("generator_version", .string c.generator),
    ("global_types", .object (c.requirements.globalTypes.map fun g => (g.1, .string g.2))),
    ("dependencies", .array (c.requirements.dependencies.names.map .string))]

/-- Names as a set. -/
def nameSet (names : List String) : Fields Unit :=
  Fields.ofList (names.map fun name => (name, ()))

/-- The compiled program that data stands for. -/
def ofJson? (j : Json) : Option CompiledProgram := do
  match ← record? ["key", "program", "generator_version", "global_types", "dependencies"] j with
  | [key, program, generator, types, dependencies] =>
    let key ← required Json.text? key
    let program ← required Program.ofJson? program
    let generator ← required Json.text? generator
    let types ← required (mapOf? Json.text?) types
    let dependencies ← required (listOf? Json.text?) dependencies
    return ⟨⟨key⟩, program, generator, ⟨Fields.ofList types, nameSet dependencies⟩⟩
  | _ => none

/-- The octets in which a compiled program is stored. -/
def encode (c : CompiledProgram) : Octets :=
  Text.encodeUtf8 c.toJson.write

/-- The compiled program that octets store. Members that no record has are passed over, whatever they
hold. -/
def decode? (octets : Octets) : Option CompiledProgram :=
  match Text.decodeUtf8 octets with
  | .ok text => (Json.read? text).bind ofJson?
  | .error _ => none

end CompiledProgram

end MarkupTemplate
