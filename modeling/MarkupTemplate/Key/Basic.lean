import MarkupTemplate.Key.Digest
import MarkupTemplate.Template.Mode
import MarkupTemplate.Text.Utf8
import MarkupTemplate.Value.Fields

/-!
# Keys of compiled templates

A key is the digest of everything that a compiled template depends on. Each part is written behind a
tag and its length, so that no octet can move from one part to another unnoticed.
-/

namespace MarkupTemplate

/-- A key: 64 hexadecimal digits in lower case. -/
structure TemplateKey where
  text : String
  deriving DecidableEq, Repr, Inhabited

/-- What a compiled template depends on. -/
structure KeyInputs where
  template : String
  mode : TemplateMode
  /-- The name of the template, which its locations show. -/
  filename : Option String
  /-- The texts of all imported templates, in order. -/
  imports : List String
  /-- Declared types of global variables. -/
  globalTypes : Fields String
  /-- Names of function libraries. -/
  dependencies : Fields Unit
  deriving DecidableEq, Repr, Inhabited

namespace KeyInputs

/-- A number of 64 bits, the least significant octet first. -/
def count (n : Nat) : List UInt8 :=
  (List.range 8).map fun i => UInt8.ofNat (n >>> (8 * i))

/-- A part behind its tag and length. -/
def part (tag : Char) (octets : List UInt8) : List UInt8 :=
  UInt8.ofNat tag.toNat :: count octets.length ++ octets

/-- A text as a part. -/
def textPart (tag : Char) (s : String) : List UInt8 :=
  part tag (Text.encodeUtf8 s)

/-- The name of a template, or that it has none. -/
def filenamePart : Option String → List UInt8
  | some name => textPart 'F' name
  | none => part 'f' []

/-- The octets that are digested. -/
def octets (inputs : KeyInputs) : List UInt8 :=
  textPart 'T' inputs.template ++ textPart 'M' inputs.mode.name ++ filenamePart inputs.filename ++
    part 'I' (count inputs.imports.length) ++ inputs.imports.flatMap (textPart 'i') ++
    part 'G' (count inputs.globalTypes.length) ++
    inputs.globalTypes.flatMap (fun g => textPart 'n' g.1 ++ textPart 't' g.2) ++
    part 'D' (count inputs.dependencies.length) ++
    inputs.dependencies.names.flatMap (textPart 'd')

end KeyInputs

namespace TemplateKey

/-- An octet in two hexadecimal digits. -/
def hexOctet (b : UInt8) : List Char :=
  [Nat.digitChar (b.toNat / 16), Nat.digitChar (b.toNat % 16)]

/-- The key of what a template depends on. -/
def derive (inputs : KeyInputs) : TemplateKey :=
  ⟨String.ofList ((Sha256.digest inputs.octets).flatMap hexOctet)⟩

/-- A digit of keys. -/
def isDigit (c : Char) : Bool :=
  c.isDigit || ('a' ≤ c && c ≤ 'f')

/-- The key that a text is. -/
def parse? (text : String) : Option TemplateKey :=
  if text.toList.length = 64 && text.toList.all isDigit then some ⟨text⟩ else none

end TemplateKey

end MarkupTemplate
