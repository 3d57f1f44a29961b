import MarkupTemplate.Expression.Basic
import MarkupTemplate.Numeric.Reading

/-!
# Reading expressions

Alternatives are separated by bars. An alternative that begins with the name of an expression type and
a colon takes all that follows, bars included. `splitBrace?` finds the brace that closes an
interpolation.
-/

namespace MarkupTemplate

open Text

/-- What is wrong with an expression. -/
inductive ExpressionProblem where
  | empty
  | emptyHost
  | unterminated
  | unknownType (name : String)
  | invalidPath (text : String)
  deriving DecidableEq, Repr

/-- The problem in words. -/
def ExpressionProblem.message : ExpressionProblem → String
  | empty => "empty expression"
  | emptyHost => "empty host expression"
  | unterminated => "unterminated '$\x7b' interpolation"
  | unknownType name => s!"unknown expression type '{name}'"
  | invalidPath text => s!"invalid path '{text}'"

/-- An expression cannot be read. -/
structure ExpressionFault where
  /-- The whole text that was read as an expression. -/
  expression : String
  problem : ExpressionProblem
  deriving DecidableEq, Repr

/-- The fault in words. -/
def ExpressionFault.message (fault : ExpressionFault) : String :=
  s!"Expression syntax error in '{fault.expression}': {fault.problem.message}"

namespace Expression

/-- A character of the name of an expression type. -/
def isTypeChar (c : Char) : Bool :=
  c.isLower || c == '-' || c == '_'

/-- The name of an expression type in front of a colon, and what follows. -/
def splitType? (cs : List Char) : Option (List Char × List Char) :=
  (splitFirst ':' cs).filter fun parts => !parts.1.isEmpty && parts.1.all isTypeChar

/-- The text up to the brace that closes `depth` open ones and one more, and the text after it. -/
def splitBrace? : Nat → List Char → Option (List Char × List Char)
  | _, [] => none
  | depth, c :: cs =>
    if c = '\x7b' then (splitBrace? (depth + 1) cs).map fun (inner, rest) => (c :: inner, rest)
    else if c = '\x7d' then
      match depth with
      | 0 => some ([], cs)
      | depth + 1 => (splitBrace? depth cs).map fun (inner, rest) => (c :: inner, rest)
    else (splitBrace? depth cs).map fun (inner, rest) => (c :: inner, rest)

/-- A number: it begins with a digit, perhaps behind a minus sign. -/
def literal? (cs : List Char) : Option Literal :=
  let size := match cs with
    | '-' :: rest => rest
    | _ => cs
  if size.head?.any Char.isDigit then
    match Numeric.readInt? cs with
    | some n => some (.int n)
    | none => (Numeric.readFloat? cs).map .float
  else none

/-- The path that `cs` is; the fault names the whole expression `source`. -/
def readPath (source cs : List Char) : Except ExpressionFault Path :=
  match Path.parse? cs with
  | some p => .ok p
  | none => .error ⟨String.ofList source, .invalidPath (String.ofList cs)⟩

/-- An alternative without a type. -/
def simple (source cs : List Char) : Except ExpressionFault Expression :=
  match String.ofList cs with
  | "" => .error ⟨String.ofList source, .empty⟩
  | "nothing" | "null" => .ok nothing
  | "default" => .ok default
  | _ =>
    match literal? cs with
    | some l => .ok (literal l)
    | none => path <$> readPath source cs

/-- The text gathered so far, the last character first, as a part before `parts`. -/
def flushText (text : List Char) (parts : List StringPart) : List StringPart :=
  if text.isEmpty then parts else .text (String.ofList text.reverse) :: parts

theorem length_trim_le (cs : List Char) : (trim cs).length ≤ cs.length := by
  have h₁ := Path.length_dropWhile_le isBlank cs
  have h₂ := Path.length_dropWhile_le isBlank (trimStart cs).reverse
  simp only [trim, trimEnd, trimStart, List.length_reverse] at h₁ h₂ ⊢
  omega

theorem length_splitFirst {sep : Char} {cs front rest : List Char}
    (h : splitFirst sep cs = some (front, rest)) :
    front.length + rest.length + 1 = cs.length := by
  unfold splitFirst at h
  split at h
  · cases h
  · next c r hd =>
    cases h
    have := congrArg List.length (List.takeWhile_append_dropWhile (p := (· != sep)) (l := cs))
    rw [hd, List.length_append, List.length_cons] at this
    omega

theorem length_splitType? {cs type body : List Char} (h : splitType? cs = some (type, body)) :
    body.length < cs.length := by
  have := length_splitFirst (Option.filter_eq_some_iff.mp h).1
  omega

theorem length_splitBrace? {depth : Nat} {cs inner rest : List Char}
    (h : splitBrace? depth cs = some (inner, rest)) :
    inner.length + rest.length + 1 = cs.length := by
  induction cs generalizing depth inner with
  | nil => cases h
  | cons c cs ih =>
    have mapped : ∀ d, (splitBrace? d cs).map (fun p => (c :: p.1, p.2)) = some (inner, rest) →
        inner.length + rest.length = cs.length := by
      intro d hd
      obtain ⟨⟨i, r⟩, hs, hp⟩ := Option.map_eq_some_iff.mp hd
      cases hp
      have := ih hs
      simp only [List.length_cons] at this ⊢
      omega
    simp only [List.length_cons]
    unfold splitBrace? at h
    split at h
    · have := mapped _ h
      omega
    · split at h
      · split at h
        · cases h; simp
        · have := mapped _ h
          omega
      · have := mapped _ h
        omega

mutual

/-- The expression that `source` holds. -/
def parseChars (source : List Char) : Except ExpressionFault Expression := do
  have := length_trim_le source
  match ← parseAlternatives source (trim source) with
  | [e] => return e
  | es => return alternatives es
termination_by 3 * source.length + 1

/-- The alternatives in `rest`, which is the trimmed end of `source`. -/
def parseAlternatives (source rest : List Char) : Except ExpressionFault (List Expression) :=
  match h : splitType? rest with
  | some (type, body) => do
    have := length_splitType? h
    return [← parseTyped source type body]
  | none =>
    match hs : splitFirst '|' rest with
    | some (head, tail) => do
      have := length_splitFirst hs
      have := length_trim_le tail
      let first ← simple source (trim head)
      return first :: (← parseAlternatives source (trim tail))
    | none => return [← simple source rest]
termination_by 3 * rest.length

/-- An expression of a named type. -/
def parseTyped (source type body : List Char) : Except ExpressionFault Expression :=
  match String.ofList type with
  | "string" => string <$> parseParts body [] body
  | "host" =>
    if (trim body).isEmpty then .error ⟨String.ofList source, .emptyHost⟩
    else .ok (host (String.ofList (trim body)))
  | "not" => not <$> parseChars body
  | "exists" => anyPath <$> (splitAll '|' body).mapM fun p => readPath source (trim p)
  | "path" => parseChars body
  | name => .error ⟨String.ofList source, .unknownType name⟩
termination_by 3 * body.length + 2

/-- The parts of the rest of the text `source`; `text` holds the characters before it that belong to
no part yet, the last one first. -/
def parseParts (source text : List Char) : List Char → Except ExpressionFault (List StringPart)
  | [] => return flushText text []
  | c :: rest =>
    if c = '$' then
      match rest with
      | '$' :: rest => parseParts source ('$' :: text) rest
      | '\x7b' :: inside =>
        match h : splitBrace? 0 inside with
        | none => .error ⟨String.ofList source, .unterminated⟩
        | some (inner, rest) => do
          have := length_splitBrace? h
          let e ← parseChars inner
          return flushText text (.interpolation e :: (← parseParts source [] rest))
      | rest =>
        match h : Path.inText? rest with
        | some (p, after) => do
          have := Path.length_lt_of_front? h
          return flushText text (.interpolation (path p) :: (← parseParts source [] after))
        | none => parseParts source ('$' :: text) rest
    else parseParts source (c :: text) rest
termination_by rest => 3 * rest.length + 1

end

/-- The expression that a text holds. -/
def parse (source : String) : Except ExpressionFault Expression :=
  parseChars source.toList

/-- The parts of a text with interpolations. -/
def parseTemplate (source : String) : Except ExpressionFault (List StringPart) :=
  parseParts source.toList [] source.toList

end Expression

end MarkupTemplate
