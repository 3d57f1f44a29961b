import MarkupTemplate.Program.Basic

/-!
# Putting blocks together

Texts that follow each other are joined and empty ones left out, so that a block never holds two texts
in a row.
-/

namespace MarkupTemplate

namespace Block

/-- A block, given from its end, with one more operation. -/
def push (block : Block) (op : Operation) : Block :=
  match op, block with
  | .literal text, .literal before :: rest => .literal (before ++ text) :: rest
  | .literal text, rest => if text.isEmpty then rest else .literal text :: rest
  | op, rest => op :: rest

/-- The block of operations in order. -/
def ofOperations (ops : List Operation) : Block :=
  (ops.foldl push []).reverse

end Block

namespace TagPlan

/-- The start tag with nothing computed. -/
def staticStart (tag : TagPlan) : String :=
  "<" ++ tag.name ++ String.join (tag.attributes.map StaticAttribute.source) ++ tag.close

/-- Content between the tags: as texts, unless something is decided when the program runs. -/
def wrap (tag : TagPlan) (body : Block) : Block :=
  match tag.omission, tag.computed with
  | .always, _ => Block.ofOperations body
  | .never, [] =>
    Block.ofOperations
      (.literal tag.staticStart :: body ++ (tag.closing.map Operation.literal).toList)
  | _, _ => [.element tag body]

end TagPlan

end MarkupTemplate
