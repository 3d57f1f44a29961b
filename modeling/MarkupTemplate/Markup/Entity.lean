import MarkupTemplate.Numeric.Reading
import MarkupTemplate.Text.Split

/-!
# Character references

Characters that would be taken for markup are written as references, `&NAME;` or a code point in decimal
or hexadecimal digits. Text is escaped for content or for a quoted attribute value, and references are
read back, or refused with the place of the one that is wrong. Places count octets.
-/

namespace MarkupTemplate

open Text

/-! ### Writing -/

/-- A character of content. -/
def escapeContentChar (c : Char) : List Char :=
  if c = '&' then "&amp;".toList
  else if c = '<' then "&lt;".toList
  else if c = '>' then "&gt;".toList
  else [c]

/-- A character of an attribute value. -/
def escapeAttributeChar (c : Char) : List Char :=
  if c = '"' then "&quot;".toList
  else if c = '\x27' then "&apos;".toList
  else escapeContentChar c

/-- Text as content. -/
def escapeContent (s : String) : String :=
  String.ofList (s.toList.flatMap escapeContentChar)

/-- Text as an attribute value. -/
def escapeAttribute (s : String) : String :=
  String.ofList (s.toList.flatMap escapeAttributeChar)

/-! ### Reading -/

/-- Why a numeric reference denotes no character. -/
inductive NumericProblem where
  | sign
  | empty
  | badDigit
  | tooLarge
  | noCharacter (code : Nat)
  | zero
  deriving DecidableEq, Repr

/-- The problem in words. -/
def NumericProblem.message : NumericProblem → String
  | sign => "unexpected number sign"
  | empty => "cannot parse integer from empty string"
  | badDigit => "invalid digit found in string"
  | tooLarge => "number too large to fit in target type"
  | noCharacter code => "\x60" ++ toString code ++ "\x60 is not a valid codepoint"
  | zero => "0x0 character is not permitted in XML"

/-- Why a text with references cannot be read. -/
inductive EntityFault where
  /-- No name is known between these octets. -/
  | unknown (first last : Nat) (name : String)
  /-- The reference that begins at `first` does not end before the text does, at `last`. -/
  | unterminated (first last : Nat)
  | numeric (problem : NumericProblem)
  deriving DecidableEq, Repr

/-- The fault in words. -/
def EntityFault.message : EntityFault → String
  | unknown first last name =>
    s!"at {first}..{last}: unrecognized entity " ++ "\x60" ++ name ++ "\x60"
  | unterminated first last =>
    s!"Error while escaping character at range {first}..{last}: Cannot find ';' after '&'"
  | numeric problem => s!"invalid character reference: {problem.message}"

/-- The value of a digit in a number system of at most sixteen digits. -/
def digitIn? (radix : Nat) (c : Char) : Option Nat :=
  let value :=
    if '0' ≤ c ∧ c ≤ '9' then some (c.toNat - 48)
    else if 'a' ≤ c ∧ c ≤ 'f' then some (c.toNat - 87)
    else if 'A' ≤ c ∧ c ≤ 'F' then some (c.toNat - 55)
    else none
  value.filter (· < radix)

/-- The number of at most 32 bits that digits continue. -/
def readCode (radix n : Nat) : List Char → Except NumericProblem Nat
  | [] => .ok n
  | c :: cs =>
    match digitIn? radix c with
    | none => .error .badDigit
    | some d =>
      if n * radix + d < UInt32.size then readCode radix (n * radix + d) cs else .error .tooLarge

/-- The number that unsigned digits denote. -/
def readUnsigned (radix : Nat) : List Char → Except NumericProblem Nat
  | [] => .error .empty
  | c :: cs => if c = '+' ∨ c = '-' then .error .sign else readCode radix 0 (c :: cs)

/-- The character of a numeric reference. -/
def readNumeric (cs : List Char) : Except NumericProblem Char := do
  let code ← match cs with
    | 'x' :: digits => readUnsigned 16 digits
    | digits => readUnsigned 10 digits
  if code = 0 then .error .zero
  else if code.isValidChar then .ok (Char.ofNat code)
  else .error (.noCharacter code)

/-- The character of a name. -/
def namedCharacter? (name : String) : Option Char :=
  match name with
  | "lt" => some '<'
  | "gt" => some '>'
  | "amp" => some '&'
  | "apos" => some '\x27'
  | "quot" => some '"'
  | _ => none

/-- The octets that characters take. -/
def octets (cs : List Char) : Nat :=
  (String.ofList cs).utf8ByteSize

/-- The character that a reference denotes, whose body begins at an offset. -/
def readReference (offset : Nat) (body : List Char) : Except EntityFault Char :=
  match body with
  | '#' :: digits =>
    match readNumeric digits with
    | .ok c => .ok c
    | .error problem => .error (.numeric problem)
  | _ =>
    match namedCharacter? (String.ofList body) with
    | some c => .ok c
    | none => .error (.unknown offset (offset + octets body) (String.ofList body))

/-- A character that goes on inside a reference. -/
def isReferenceChar (c : Char) : Bool :=
  c != '&' && c != ';'

/-- Replaces references by their characters; `offset` octets stand before, and the text is `size`
octets long. -/
def unescapeFrom (size offset : Nat) : List Char → Except EntityFault (List Char)
  | [] => .ok []
  | c :: cs =>
    if c ≠ '&' then (c :: ·) <$> unescapeFrom size (offset + c.utf8Size) cs
    else
      match h : cs.dropWhile isReferenceChar with
      | ';' :: rest => do
        let body := cs.takeWhile isReferenceChar
        let character ← readReference (offset + 1) body
        (character :: ·) <$> unescapeFrom size (offset + 2 + octets body) rest
      | _ => .error (.unterminated offset size)
termination_by cs => cs.length
decreasing_by
  · simp
  · have := (List.dropWhile_sublist (l := cs) isReferenceChar).length_le
    rw [h] at this
    simp only [List.length_cons] at this ⊢
    omega

/-- The text that a text with references stands for. -/
def unescape (s : String) : Except EntityFault String :=
  String.ofList <$> unescapeFrom s.utf8ByteSize 0 s.toList

end MarkupTemplate
