import MarkupTemplate.Proofs.Evaluation.Frames
import MarkupTemplate.Proofs.Results
import MarkupTemplate.Render.Execute

/-!
# Frames while a program runs

Binding variables changes frames, but not their number.
-/

namespace MarkupTemplate

namespace RenderContext

variable (context : RenderContext) {σ τ : Scope}

/-- What a definition binds, and how. -/
theorem bind_cases {kind : BindingKind} {name : String} {e : LocatedExpression}
    (h : context.bind kind name e σ = .ok τ) : ∃ v, context.value σ e = .ok v ∧
      (kind = .innermost ∧ τ = σ.defineLocal name v ∨ kind = .root ∧ τ = σ.defineGlobal name v ∨
        kind = .existing ∧ σ.set name v = .ok τ) := by
  unfold bind at h
  obtain ⟨v, hv, h⟩ := bind_eq_ok.1 h
  refine ⟨v, hv, ?_⟩
  cases kind with
  | innermost => cases h; exact .inl ⟨rfl, rfl⟩
  | root => cases h; exact .inr (.inl ⟨rfl, rfl⟩)
  | existing =>
    simp only at h
    split at h
    · rename_i hs
      cases h
      exact .inr (.inr ⟨rfl, hs⟩)
    · cases h

theorem depth_bind {kind : BindingKind} {name : String} {e : LocatedExpression}
    (h : context.bind kind name e σ = .ok τ) : τ.depth = σ.depth := by
  obtain ⟨v, -, ⟨-, rfl⟩ | ⟨-, rfl⟩ | ⟨-, h⟩⟩ := context.bind_cases h
  · exact Scope.depth_defineLocal σ name v
  · exact Scope.depth_defineGlobal σ name v
  · exact Scope.depth_set h

theorem depth_itemScope (name : String) (loops : Fields Value) (length index : Nat) (item : Value)
    (σ : Scope) : (itemScope name loops length index item σ).depth = σ.depth := by
  rw [itemScope, Scope.depth_defineLocal, Scope.depth_defineLocal]

theorem depth_defineAll (bindings : List (String × Value)) (σ : Scope) :
    (defineAll bindings σ).depth = σ.depth := by
  induction bindings generalizing σ with
  | nil => rfl
  | cons binding bindings ih => exact (ih _).trans (Scope.depth_defineLocal ..)

theorem truncate_defineAll {d : Nat} (h : d < σ.depth) (hd : 0 < d)
    (bindings : List (String × Value)) : (defineAll bindings σ).truncate d = σ.truncate d := by
  induction bindings generalizing σ with
  | nil => rfl
  | cons binding bindings ih =>
    refine (ih ?_).trans (Scope.truncate_defineLocal h hd ..)
    rwa [Scope.depth_defineLocal]

end RenderContext

end MarkupTemplate
