import MarkupTemplate.Compile.Builder

/-!
# Programs without their places

A program records where its expressions, its calls and its macros stand in their sources. `Program.unplaced`
puts one place in the stead of all of them, so that two programs are the same up to the places recorded in
them if they are equal without. Putting blocks together does not look at places.
-/

namespace MarkupTemplate

/-- The place put in the stead of all places. -/
def Location.nowhere : Location :=
  ⟨.start, none⟩

/-- The expression without its place. -/
def LocatedExpression.unplaced (e : LocatedExpression) : LocatedExpression :=
  { e with location := .nowhere }

/-- The omission without places. -/
def Omission.unplaced : Omission → Omission
  | never => never
  | always => always
  | when e => when e.unplaced

/-- The attribute without places. -/
def ComputedAttribute.unplaced (a : ComputedAttribute) : ComputedAttribute :=
  { a with value := a.value.unplaced }

/-- The tag without places. -/
def TagPlan.unplaced (tag : TagPlan) : TagPlan :=
  { tag with
    computed := tag.computed.map ComputedAttribute.unplaced
    omission := tag.omission.unplaced }

/-- The target without places. -/
def MacroTarget.unplaced : MacroTarget → MacroTarget
  | known id => known id
  | computed e => computed e.unplaced

/-- The argument without places. -/
def Argument.unplaced : Argument → Argument
  | value e => value e.unplaced
  | default => default

/-- The arguments of a call without places. -/
def Argument.unplacedAll (arguments : List (String × Argument)) : List (String × Argument) :=
  arguments.map fun argument => (argument.1, argument.2.unplaced)

namespace Operation

mutual

/-- The operation without places. -/
def unplaced : Operation → Operation
  | literal text => literal text
  | emit e asMarkup fallback => emit e.unplaced asMarkup (unplacedAll fallback)
  | pushScope => pushScope
  | popScope => popScope
  | define kind name e => define kind name e.unplaced
  | condition test body => condition test.unplaced (unplacedAll body)
  | .repeat name items body => .repeat name items.unplaced (unplacedAll body)
  | element tag body => element tag.unplaced (unplacedAll body)
  | onError body handler asMarkup => onError (unplacedAll body) handler.unplaced asMarkup
  | callMacro target fills arguments _ =>
    callMacro target.unplaced (unplacedFills fills) (Argument.unplacedAll arguments) .nowhere
  | slot name fallback => slot name (unplacedAll fallback)

/-- The block without places. -/
def unplacedAll : List Operation → List Operation
  | [] => []
  | op :: ops => op.unplaced :: unplacedAll ops

/-- The fills of a call without places. -/
def unplacedFills : List (String × List Operation) → List (String × List Operation)
  | [] => []
  | (name, body) :: fills => (name, unplacedAll body) :: unplacedFills fills

end

end Operation

/-- The parameter without places. -/
def Parameter.unplaced (p : Parameter) : Parameter :=
  { p with default? := p.default?.map LocatedExpression.unplaced }

/-- The macro without places. -/
def Macro.unplaced (m : Macro) : Macro :=
  { m with
    parameters := m.parameters.map Parameter.unplaced
    body := Operation.unplacedAll m.body
    location := .nowhere }

/-- The program without places. -/
def Program.unplaced (program : Program) : Program :=
  { program with
    body := Operation.unplacedAll program.body
    macros := program.macros.map Macro.unplaced }

/-- The definition without places. -/
def Directive.Definition.unplaced (d : Definition) : Definition :=
  { d with value := d.value.unplaced }

/-- The fills of a call without places. -/
def Fills.unplaced (fills : Fills) : Fills :=
  ⟨Operation.unplacedFills fills.slots, Argument.unplacedAll fills.arguments⟩

/-! ### Putting blocks together -/

namespace Argument

theorem unplacedAll_append (xs ys : List (String × Argument)) :
    unplacedAll (xs ++ ys) = unplacedAll xs ++ unplacedAll ys :=
  List.map_append

theorem names_unplacedAll (arguments : List (String × Argument)) :
    (unplacedAll arguments).map Prod.fst = arguments.map Prod.fst := by
  rw [unplacedAll, List.map_map]
  rfl

end Argument

/-- A name is found among parameters whether they have places or not. -/
theorem Parameter.any_unplaced (name : String) (ps : List Parameter) :
    ps.any (·.name == name) = (ps.map Parameter.unplaced).any (·.name == name) := by
  rw [List.any_map]
  rfl

namespace Operation

@[simp] theorem unplacedAll_nil : unplacedAll [] = [] := by
  rw [unplacedAll]

@[simp] theorem unplacedAll_cons (op : Operation) (ops : List Operation) :
    unplacedAll (op :: ops) = op.unplaced :: unplacedAll ops := by
  rw [unplacedAll]

@[simp] theorem unplaced_literal (s : String) : (literal s).unplaced = literal s := by
  rw [unplaced]

theorem unplacedAll_eq_map (ops : List Operation) : unplacedAll ops = ops.map unplaced := by
  induction ops with
  | nil => simp
  | cons op ops ih => simp [ih]

@[simp] theorem unplacedAll_append (xs ys : List Operation) :
    unplacedAll (xs ++ ys) = unplacedAll xs ++ unplacedAll ys := by
  simp only [unplacedAll_eq_map, List.map_append]

theorem unplacedFills_eq_map (fills : List (String × Block)) :
    unplacedFills fills = fills.map fun fill => (fill.1, unplacedAll fill.2) := by
  induction fills with
  | nil => rw [unplacedFills, List.map_nil]
  | cons fill fills ih => rw [unplacedFills, List.map_cons, ih]

theorem unplacedFills_append (xs ys : List (String × Block)) :
    unplacedFills (xs ++ ys) = unplacedFills xs ++ unplacedFills ys := by
  simp only [unplacedFills_eq_map, List.map_append]

theorem names_unplacedFills (fills : List (String × Block)) :
    (unplacedFills fills).map Prod.fst = fills.map Prod.fst := by
  rw [unplacedFills_eq_map, List.map_map]
  rfl

theorem unplaced_push (block : Block) (op : Operation) :
    unplacedAll (Block.push block op) = Block.push (unplacedAll block) op.unplaced := by
  cases op with
  | literal s =>
    cases block with
    | nil =>
      simp only [Block.push, unplaced_literal, unplacedAll_nil]
      split <;> simp
    | cons last rest =>
      cases last with
      | literal t => simp only [Block.push, unplacedAll_cons, unplaced_literal]
      | _ =>
        simp only [Block.push, unplacedAll_cons, unplaced]
        split <;> simp [unplaced]
  | _ => simp only [Block.push, unplacedAll_cons, unplaced]

@[simp] theorem unplaced_ofOperations (ops : List Operation) :
    unplacedAll (Block.ofOperations ops) = Block.ofOperations (unplacedAll ops) := by
  have hfold : ∀ block : Block, unplacedAll (ops.foldl Block.push block) =
      (unplacedAll ops).foldl Block.push (unplacedAll block) := by
    induction ops with
    | nil => simp
    | cons op ops ih =>
      intro block
      rw [List.foldl_cons, ih, unplaced_push, unplacedAll_cons, List.foldl_cons]
  rw [Block.ofOperations, Block.ofOperations, unplacedAll_eq_map, List.map_reverse, ← unplacedAll_eq_map, hfold,
    unplacedAll_nil]

@[simp] theorem unplaced_inScope (ds : List Directive.Definition) (block : Block) :
    unplacedAll (DirectiveSet.inScope ds block) =
      DirectiveSet.inScope (ds.map Directive.Definition.unplaced) (unplacedAll block) := by
  have hds : unplacedAll (ds.map fun d => define d.kind d.name d.value) =
      (ds.map Directive.Definition.unplaced).map fun d => define d.kind d.name d.value := by
    rw [unplacedAll_eq_map, List.map_map, List.map_map]
    refine List.map_congr_left fun d _ => ?_
    rw [Function.comp_apply, unplaced]
    rfl
  simp only [DirectiveSet.inScope, List.cons_append, unplacedAll_cons, unplacedAll_append, unplacedAll_nil,
    unplaced, hds]

end Operation

/-- How a tag is written depends on no place. -/
theorem TagPlan.unplaced_wrap (tag : TagPlan) (body : Block) :
    Operation.unplacedAll (tag.wrap body) = tag.unplaced.wrap (Operation.unplacedAll body) := by
  obtain ⟨name, attributes, computed, close, closing, omission⟩ := tag
  have hclosing : Operation.unplacedAll (closing.map Operation.literal).toList =
      (closing.map Operation.literal).toList := by
    cases closing <;> simp
  cases omission with
  | always => simp only [wrap, unplaced, Omission.unplaced, Operation.unplaced_ofOperations]
  | never =>
    cases computed with
    | nil =>
      simp only [wrap, unplaced, Omission.unplaced, List.map_nil, Operation.unplaced_ofOperations,
        List.cons_append, Operation.unplacedAll_cons, Operation.unplaced_literal, Operation.unplacedAll_append,
        hclosing]
    | cons a computed =>
      simp only [wrap, unplaced, Omission.unplaced, List.map_cons, Operation.unplacedAll_cons,
        Operation.unplacedAll_nil, Operation.unplaced]
  | when e =>
    simp only [wrap, unplaced, Omission.unplaced, Operation.unplacedAll_cons, Operation.unplacedAll_nil,
      Operation.unplaced]

end MarkupTemplate
