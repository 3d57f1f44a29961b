import MarkupTemplate.Compile.Basic
import MarkupTemplate.Proofs.Reordering.Together
import MarkupTemplate.Proofs.Reordering.Unplaced

/-!
# Arguments at other places

What the argument of a directive says does not depend on the place of the directive, apart from the places
given to the expressions in it.
-/

namespace MarkupTemplate

theorem CompileProblem.located_together {α α' : Type} {R : α → α' → Prop} {x : Except CompileProblem α}
    {x' : Except CompileProblem α'} (h : Together R x x') (location location' : Location) :
    Together R (located location x) (located location' x') := by
  cases h with
  | ok h => exact .ok h
  | error e e' => exact .error _ _

namespace Directive

/-- A result with an expression behind it, without the place of the expression. -/
def unplacedSaid {α : Type} (said : α × LocatedExpression) : α × LocatedExpression :=
  (said.1, said.2.unplaced)

theorem same_unplacedSaid {α : Type} {a a' : α} {e e' : LocatedExpression} :
    Same unplacedSaid (a, e) (a', e') ↔ a = a' ∧ e.unplaced = e'.unplaced :=
  Prod.mk.injEq .. ▸ Iff.rfl

variable (location location' : Location)

theorem expression_together (cs : List Char) :
    Together (Same LocatedExpression.unplaced) (expression cs location) (expression cs location') := by
  unfold expression
  split
  · exact .ok rfl
  · exact .error _ _

theorem definition_together (entry : String) :
    Together (Same Definition.unplaced) (definition location entry) (definition location' entry) := by
  unfold definition
  generalize firstWord entry.toList = parts
  obtain ⟨word, rest⟩ := parts
  dsimp only
  generalize (if (bindingKind? word).isSome then firstWord rest else (word, rest)) = parts
  obtain ⟨written, rest⟩ := parts
  refine Together.bind_same _ fun variableName => ?_
  split
  · exact .error _ _
  · refine (expression_together location location' rest).bind fun e e' he => .ok ?_
    simp only [Same, Definition.unplaced] at he ⊢
    rw [he]

theorem definitions_together (argument : String) : Together (Same (List.map Definition.unplaced))
    (definitions argument location) (definitions argument location') :=
  Together.mapM_same (definition_together location location') _

theorem loop_together (argument : String) :
    Together (Same unplacedSaid) (loop argument location) (loop argument location') := by
  unfold loop
  generalize firstWord argument.toList = parts
  obtain ⟨word, rest⟩ := parts
  refine Together.bind_same _ fun variableName => ?_
  split
  · exact .error _ _
  · exact (expression_together location location' rest).bind fun e e' he => .ok (same_unplacedSaid.2 ⟨rfl, he⟩)

theorem content_together (argument : String) :
    Together (Same unplacedSaid) (content argument location) (content argument location') := by
  have hsaid : ∀ (asMarkup : Bool) (cs : List Char), Together (Same unplacedSaid)
      (do return (asMarkup, ← expression cs location)) (do return (asMarkup, ← expression cs location')) :=
    fun asMarkup cs => (expression_together location location' cs).bind
      fun e e' he => .ok (same_unplacedSaid.2 ⟨rfl, he⟩)
  unfold content
  generalize firstWord argument.toList = parts
  obtain ⟨word, rest⟩ := parts
  dsimp only
  split <;> exact hsaid _ _

theorem handler_together (argument : String) :
    Together (Same unplacedSaid) (handler argument location) (handler argument location') := by
  unfold handler
  split
  · exact .ok rfl
  · exact content_together location location' argument

theorem computedAttribute_together (entry : String) : Together (Same ComputedAttribute.unplaced)
    (computedAttribute location entry) (computedAttribute location' entry) := by
  unfold computedAttribute
  generalize firstWord entry.toList = parts
  obtain ⟨word, rest⟩ := parts
  dsimp only
  split
  · exact .error _ _
  split
  · exact .error _ _
  refine (expression_together location location' rest).bind fun e e' he => .ok ?_
  simp only [Same, ComputedAttribute.unplaced] at he ⊢
  rw [he]

theorem computedAttributes_together (argument : String) :
    Together (Same (List.map ComputedAttribute.unplaced)) (computedAttributes argument location)
      (computedAttributes argument location') :=
  Together.mapM_same (computedAttribute_together location location') _

theorem omission_together (argument : String) :
    Together (Same Omission.unplaced) (omission argument location) (omission argument location') := by
  unfold omission
  split
  · exact .ok rfl
  · refine (expression_together location location' _).map fun e e' he => ?_
    exact congrArg Omission.when he

theorem parameter_together (entry : String) :
    Together (Same Parameter.unplaced) (parameter location entry) (parameter location' entry) := by
  unfold parameter
  generalize firstWord entry.toList = parts
  obtain ⟨word, rest⟩ := parts
  dsimp only
  split
  · exact .error _ _
  generalize firstWord rest = parts
  obtain ⟨word, rest⟩ := parts
  refine Together.bind_same _ fun parameterName => ?_
  split
  · exact .ok rfl
  · refine (expression_together location location' rest).bind fun e e' he => .ok ?_
    simp only [Same, Parameter.unplaced, Option.map_some] at he ⊢
    rw [he]

theorem parameters_together (argument : String) : Together (Same (List.map Parameter.unplaced))
    (parameters argument location) (parameters argument location') :=
  Together.mapM_same (parameter_together location location') _

theorem argumentEntry_together (entry : String) :
    Together (Same fun argument => (argument.1, argument.2.unplaced)) (argumentEntry location entry)
      (argumentEntry location' entry) := by
  unfold argumentEntry
  generalize firstWord entry.toList = parts
  obtain ⟨word, rest⟩ := parts
  refine Together.bind_same _ fun parameterName => ?_
  dsimp only
  split
  · exact .error _ _
  split
  · exact .ok rfl
  · exact (expression_together location location' _).bind fun e e' he =>
      .ok (Prod.ext rfl (congrArg Argument.value he))

theorem arguments_together (argument : String) :
    Together (Same Argument.unplacedAll) (arguments argument location) (arguments argument location') :=
  Together.mapM_same (argumentEntry_together location location') _

end Directive

end MarkupTemplate
