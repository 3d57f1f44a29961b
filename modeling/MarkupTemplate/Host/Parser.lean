import MarkupTemplate.Expression.Path
import MarkupTemplate.Host.Fault
import MarkupTemplate.Host.Syntax

/-!
# Reading host code

From loosest to tightest: `or`, `and`, `not`, one comparison, sums, products, minus signs, then members,
indexing and calls. Every reader gets the reader of bracketed expressions as an argument, so the
grammar is a chain of plain functions, and `expression` ties the knot by nesting depth.

A reader that fails makes another alternative be tried at the same place; the last one, a name, gives
the fault. Only the call of something that cannot be called ends the reading.
-/

namespace MarkupTemplate.Host

open Text

/-- What reads a part of host code at the front of a text. -/
abbrev Reader (α : Type) := List Char → Except HostSyntaxProblem (α × List Char)

/-- No other alternative is tried after this problem. -/
def isFinal : HostSyntaxProblem → Bool
  | .notCallable _ => true
  | _ => false

/-! ### Words and signs -/

/-- A blank between tokens. -/
def isSpace (c : Char) : Bool :=
  c == ' ' || c == '\t' || c == '\r' || c == '\n'

/-- The text after leading blanks. -/
def skipSpace (cs : List Char) : List Char :=
  cs.dropWhile isSpace

/-- The text after a sign and the blanks on both its sides. -/
def sign? (word : String) (cs : List Char) : Option (List Char) :=
  (dropStart? word.toList (skipSpace cs)).map skipSpace

/-- The text after a word that no letter, digit or underscore continues. -/
def word? (word : String) (cs : List Char) : Option (List Char) :=
  (dropStart? word.toList cs).filter fun rest => !rest.head?.any Path.isRootChar

/-- The text after a word and the blanks on both its sides. -/
def spacedWord? (word : String) (cs : List Char) : Option (List Char) :=
  (word? word (skipSpace cs)).map skipSpace

/-- The words that are no names. -/
def keywords : List String :=
  ["and", "or", "not", "in", "True", "False", "None", "true", "false", "null"]

/-- The first sign or word of a table that stands at the front, with its meaning. -/
def firstOf {α : Type} (table : List (α × (List Char → Option (List Char)))) (cs : List Char) :
    Option (α × List Char) :=
  table.findSome? fun entry => (entry.2 cs).map fun rest => (entry.1, rest)

/-- The words `not in`, with blanks between them. -/
def notIn? (cs : List Char) : Option (List Char) :=
  (word? "not" cs).bind fun rest =>
    if rest.head?.any isSpace then word? "in" (skipSpace rest) else none

/-- Comparison operators; longer signs stand before their beginnings. -/
def comparisonOp? (cs : List Char) : Option (BinaryOp × List Char) :=
  (firstOf [
    (.eq, dropStart? "==".toList), (.ne, dropStart? "!=".toList), (.le, dropStart? "<=".toList),
    (.ge, dropStart? ">=".toList), (.lt, dropStart? "<".toList), (.gt, dropStart? ">".toList),
    (.isNotIn, notIn?), (.isIn, word? "in")] (skipSpace cs)).map
      fun (op, rest) => (op, skipSpace rest)

/-- Operators of sums. -/
def sumOp? : List Char → Option (BinaryOp × List Char) :=
  firstOf [(.add, sign? "+"), (.sub, sign? "-")]

/-- Operators of products. -/
def productOp? : List Char → Option (BinaryOp × List Char) :=
  firstOf [(.floorDiv, sign? "//"), (.mul, sign? "*"), (.div, sign? "/"), (.mod, sign? "%")]

/-- The operator `and`. -/
def andOp? : List Char → Option (BinaryOp × List Char) :=
  firstOf [(.and, spacedWord? "and")]

/-- The operator `or`. -/
def orOp? : List Char → Option (BinaryOp × List Char) :=
  firstOf [(.or, spacedWord? "or")]

/-! ### Operands -/

/-- A number: digits, perhaps a point and more digits; a whole one has at most 64 bits. -/
def number? (cs : List Char) : Option (Value × List Char) :=
  let whole := cs.takeWhile Char.isDigit
  let rest := cs.dropWhile Char.isDigit
  if whole.isEmpty then none
  else
    match rest with
    | '.' :: after =>
      let fraction := after.takeWhile Char.isDigit
      if fraction.isEmpty then (Numeric.readInt? whole).map fun n => (.int n, rest)
      else
        (Numeric.readFloat? (whole ++ '.' :: fraction)).map fun x =>
          (.float x, after.dropWhile Char.isDigit)
    | _ => (Numeric.readInt? whole).map fun n => (.int n, rest)

/-- A text between two quotes of one kind. -/
def string? (cs : List Char) : Option (Value × List Char) :=
  match cs with
  | '\x27' :: rest =>
    (splitFirst '\x27' rest).map fun (text, rest) => (.str (String.ofList text), rest)
  | '"' :: rest => (splitFirst '"' rest).map fun (text, rest) => (.str (String.ofList text), rest)
  | _ => none

/-- A word that stands for a value. -/
def constant? : List Char → Option (Value × List Char) :=
  firstOf [
    (.bool true, word? "True"), (.bool true, word? "true"),
    (.bool false, word? "False"), (.bool false, word? "false"),
    (.nothing, word? "None"), (.nothing, word? "null")]

/-- A name that is no keyword. -/
def name : Reader String := fun cs =>
  match Path.root? cs with
  | none => .error (.noOperand (String.ofList cs))
  | some (root, rest) =>
    if keywords.contains (String.ofList root) then .error (.keyword (String.ofList cs))
    else .ok (String.ofList root, rest)

/-- More items, each behind a comma. A comma that no item follows is not taken. -/
def moreItems {α : Type} (item : Reader α) (cs : List Char) :
    Except HostSyntaxProblem (List α × List Char) :=
  match sign? "," cs with
  | none => .ok ([], cs)
  | some next =>
    match item next with
    | .error problem => if isFinal problem then .error problem else .ok ([], cs)
    | .ok (a, rest) =>
      if rest.length < cs.length then do
        let (others, rest) ← moreItems item rest
        return (a :: others, rest)
      else .ok ([], cs)
termination_by cs.length

/-- Items separated by commas, perhaps none. -/
def itemsOf {α : Type} (item : Reader α) : Reader (List α) := fun cs =>
  match item cs with
  | .error problem => if isFinal problem then .error problem else .ok ([], cs)
  | .ok (a, rest) => do
    let (others, rest) ← moreItems item rest
    return (a :: others, rest)

/-- What `inner` reads, and a closing bracket behind it; none if either is missing. -/
def closed? {α : Type} (inner : Reader α) (close : String) (cs : List Char) :
    Except HostSyntaxProblem (Option (α × List Char)) :=
  match inner cs with
  | .error problem => if isFinal problem then .error problem else .ok none
  | .ok (a, rest) => .ok ((sign? close rest).map fun rest => (a, rest))

variable (nested : Reader HostExpr)

/-- A list or an expression in brackets. -/
def bracketed? (cs : List Char) : Except HostSyntaxProblem (Option (HostExpr × List Char)) :=
  match cs with
  | '[' :: rest => do
    let items ← closed? (itemsOf nested) "]" rest
    return items.map fun (items, rest) => (.list items, rest)
  | '(' :: rest => closed? nested ")" (skipSpace rest)
  | _ => .ok none

/-- An operand without operators, members, indices and calls. -/
def primary : Reader HostExpr := fun cs =>
  match ((number? cs).or (string? cs)).or (constant? cs) with
  | some (v, rest) => .ok (.literal v, rest)
  | none => do
    match ← bracketed? nested cs with
    | some read => return read
    | none =>
      let (n, rest) ← name cs
      return (.name n, rest)

/-- What can follow an operand. -/
inductive Suffix where
  | member (n : String)
  | index (i : HostExpr)
  | call (args : List HostExpr)

/-- A member, an index or arguments at the front of a text. -/
def suffix? (cs : List Char) : Except HostSyntaxProblem (Option (Suffix × List Char)) :=
  match (sign? "." cs).bind Path.root? with
  | some (n, rest) => .ok (some (.member (String.ofList n), rest))
  | none =>
    match sign? "[" cs with
    | some rest => do
      let i ← closed? nested "]" rest
      return i.map fun (i, rest) => (.index i, rest)
    | none =>
      match sign? "(" cs with
      | some rest => do
        let args ← closed? (itemsOf nested) ")" rest
        return args.map fun (args, rest) => (.call args, rest)
      | none => .ok none

/-- An operand with one more suffix; `cs` is the text where the suffix begins. -/
def applySuffix (cs : List Char) (e : HostExpr) : Suffix → Except HostSyntaxProblem HostExpr
  | .member n => .ok (.member e n)
  | .index i => .ok (.index e i)
  | .call args =>
    match e with
    | .name function => .ok (.call function args)
    | .member target function => .ok (.call function (target :: args))
    | _ => .error (.notCallable (String.ofList cs))

/-- The suffixes behind an operand. -/
def suffixes (e : HostExpr) (cs : List Char) : Except HostSyntaxProblem (HostExpr × List Char) := do
  match ← suffix? nested cs with
  | none => return (e, cs)
  | some (s, rest) =>
    let e ← applySuffix cs e s
    if rest.length < cs.length then suffixes e rest else return (e, rest)
termination_by cs.length

/-- An operand with members, indices and calls. -/
def postfixed : Reader HostExpr := fun cs => do
  let (e, rest) ← primary nested (skipSpace cs)
  suffixes nested e (skipSpace rest)

/-- An operand behind any number of minus signs. -/
def negated (cs : List Char) : Except HostSyntaxProblem (HostExpr × List Char) :=
  match sign? "-" cs with
  | none => postfixed nested cs
  | some rest =>
    if rest.length < cs.length then
      match negated rest with
      | .ok (e, rest) => .ok (.unary .neg e, rest)
      | .error problem => if isFinal problem then .error problem else postfixed nested cs
    else postfixed nested cs
termination_by cs.length

/-! ### Operators -/

/-- More operands behind operators of one level, to the left operand `e`. -/
def moreOperands (operand : Reader HostExpr) (op? : List Char → Option (BinaryOp × List Char))
    (e : HostExpr) (cs : List Char) : Except HostSyntaxProblem (HostExpr × List Char) :=
  match op? cs with
  | none => .ok (e, cs)
  | some (op, rest) => do
    let (right, rest) ← operand rest
    if rest.length < cs.length then moreOperands operand op? (.binary op e right) rest
    else return (.binary op e right, rest)
termination_by cs.length

/-- Operands with operators of one level between them, grouped to the left. -/
def leftGrouped (operand : Reader HostExpr) (op? : List Char → Option (BinaryOp × List Char)) :
    Reader HostExpr := fun cs => do
  let (e, rest) ← operand cs
  moreOperands operand op? e rest

/-- Products. -/
def product : Reader HostExpr := leftGrouped (negated nested) productOp?

/-- Sums. -/
def sum : Reader HostExpr := leftGrouped (product nested) sumOp?

/-- A sum, or two with a comparison between them. -/
def comparison : Reader HostExpr := fun cs => do
  let (left, rest) ← sum nested cs
  match comparisonOp? rest with
  | none => return (left, rest)
  | some (op, rest) =>
    let (right, rest) ← sum nested rest
    return (.binary op left right, rest)

/-- A comparison behind any number of `not`. -/
def notLevel (cs : List Char) : Except HostSyntaxProblem (HostExpr × List Char) :=
  match spacedWord? "not" cs with
  | none => comparison nested cs
  | some rest =>
    if rest.length < cs.length then
      match notLevel rest with
      | .ok (e, rest) => .ok (.unary .not e, rest)
      | .error problem => if isFinal problem then .error problem else comparison nested cs
    else comparison nested cs
termination_by cs.length

/-- Operands of `or`: those of `and` grouped. -/
def andLevel : Reader HostExpr := leftGrouped (notLevel nested) andOp?

/-- The loosest level. -/
def orLevel : Reader HostExpr := leftGrouped (andLevel nested) orOp?

/-- An expression with brackets nested at most `depth` deep. -/
def expression : Nat → Reader HostExpr
  | 0 => fun cs => .error (.noOperand (String.ofList cs))
  | depth + 1 => orLevel (expression depth)

/-- The expression that a text is. Brackets cannot nest deeper than the text is long. -/
def parseChars (cs : List Char) : Except HostSyntaxProblem HostExpr := do
  let (e, rest) ← expression (cs.length + 1) (skipSpace cs)
  match skipSpace rest with
  | [] => return e
  | rest => .error (.trailing (String.ofList rest))

/-- The expression that host code is. -/
def parse (code : String) : Except HostFault HostExpr :=
  match parseChars code.toList with
  | .ok e => .ok e
  | .error problem => .error (.badSyntax code problem)

end MarkupTemplate.Host
