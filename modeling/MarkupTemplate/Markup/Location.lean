/-!
# Places in a source text

Lines and columns count from one, columns in characters; offsets count octets from zero. The position
behind a text is reached character by character.
-/

namespace MarkupTemplate

/-- A place in a text. -/
structure Position where
  line : Nat
  column : Nat
  /-- Octets before the place. -/
  offset : Nat
  deriving DecidableEq, Repr, Inhabited

namespace Position

/-- The place before a text. -/
def start : Position := ⟨1, 1, 0⟩

/-- The place behind one more character. -/
def step (p : Position) (c : Char) : Position :=
  if c = '\n' then ⟨p.line + 1, 1, p.offset + c.utf8Size⟩
  else ⟨p.line, p.column + 1, p.offset + c.utf8Size⟩

/-- The place behind a text that begins at `p`. -/
def after (p : Position) (cs : List Char) : Position :=
  cs.foldl step p

@[simp] theorem after_nil (p : Position) : p.after [] = p := rfl

@[simp] theorem after_append (p : Position) (cs ds : List Char) :
    p.after (cs ++ ds) = (p.after cs).after ds := by
  simp [after]

end Position

/-- A place in a source that may have a name. -/
structure Location extends Position where
  filename : Option String := none
  deriving DecidableEq, Repr, Inhabited

namespace Location

/-- A place in words, as messages give it. -/
def describe (l : Location) : String :=
  match l.filename with
  | some name => s!"{name}, line {l.line}, column {l.column}"
  | none => s!"line {l.line}, column {l.column}"

end Location

end MarkupTemplate
