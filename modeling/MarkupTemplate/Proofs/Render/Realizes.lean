import MarkupTemplate.Proofs.Render.Frames
import MarkupTemplate.Proofs.Render.Trees

/-!
# Outcomes of programs and of trees

A program leaves the frames of a failed part behind and cuts them off where the failure is handled; a tree
leaves each frame at its end. `Realizes`: apart from this the outcomes are the same, and there is one. What
puts parts together keeps this.
-/

namespace MarkupTemplate

/-- What a program makes of the variables `σ`, and what a tree does: the same, but that a failure in the
program may leave more frames behind. -/
inductive Restores (σ : Scope) : Outcome Scope String → Outcome Scope String → Prop
  | done {s : String} {τ : Scope} (h : τ.depth = σ.depth) : Restores σ (.done s τ) (.done s τ)
  | failed {fault : RenderFault} {τ : Scope} (h : σ.depth ≤ τ.depth) :
      Restores σ (.failed fault τ) (.failed fault (τ.truncate σ.depth))

theorem Restores.failed_here {σ τ : Scope} (h : τ.depth = σ.depth) (fault : RenderFault) :
    Restores σ (.failed fault τ) (.failed fault τ) := by
  have hf : Restores σ (.failed fault τ) (.failed fault (τ.truncate σ.depth)) :=
    .failed (Nat.le_of_eq h.symm)
  rwa [Scope.truncate_eq_self h] at hf

/-- The meaning of a program is that of a tree. -/
def Realizes (m n : Meaning) : Prop :=
  ∀ σ, Restores σ (m.run σ) (n.run σ)

namespace Realizes

variable {m n m' n' : Meaning}

theorem text (s : String) : Realizes (.text s) (.text s) := fun _ => .done rfl

theorem change {f : Scope → Scope} (h : ∀ σ, (f σ).depth = σ.depth) :
    Realizes (.change f) (.change f) := fun σ => .done (h σ)

theorem read {α : Type} {f : Scope → Except RenderFault α} {x y : α → Meaning}
    (h : ∀ σ a, f σ = .ok a → Restores σ ((x a).run σ) ((y a).run σ)) :
    Realizes (Run.read f >>= x) (Run.read f >>= y) := fun σ => by
  cases hf : f σ with
  | ok a =>
    rw [Run.run_bind_done (Run.run_read_ok hf), Run.run_bind_done (Run.run_read_ok hf)]
    exact h σ a hf
  | error fault =>
    rw [Run.run_bind_failed (Run.run_read_error hf), Run.run_bind_failed (Run.run_read_error hf)]
    exact .failed_here rfl fault

theorem append (hm : Realizes m m') (hn : Realizes n n') : Realizes (m ++ n) (m' ++ n') := fun σ => by
  have h := hm σ
  generalize ho : m.run σ = o at h
  generalize hp : m'.run σ = p at h
  cases h with
  | @done s τ hd =>
    rw [Meaning.run_append_done ho, Meaning.run_append_done hp]
    have h := hn τ
    generalize n.run τ = o at h ⊢
    generalize n'.run τ = p at h ⊢
    cases h with
    | done h => exact .done (h.trans hd)
    | failed h => rw [hd] at h ⊢; exact .failed h
  | failed hd =>
    rw [Meaning.run_append_failed ho, Meaning.run_append_failed hp]
    exact .failed hd

theorem framed (h : Realizes m n) : Realizes (Meaning.inFrame m) (Meaning.framed n) := fun σ => by
  have h := h σ.push
  have hp : (Meaning.change Scope.push).run σ = .done "" σ.push := rfl
  rw [Meaning.inFrame, Meaning.append_assoc, Meaning.run_append_done hp]
  simp only [Meaning.framed]
  generalize ho : m.run σ.push = o at h
  generalize n.run σ.push = p at h ⊢
  cases h with
  | @done s τ hd =>
    have hpop : (Meaning.change Scope.pop).run τ = .done "" τ.pop := rfl
    rw [Meaning.run_append_done ho, hpop]
    simp only [Outcome.map, String.empty_append, String.append_empty]
    exact .done (Scope.depth_pop hd σ.depth_pos)
  | failed hd =>
    rw [Meaning.run_append_failed ho, Scope.depth_push]
    simp only [Outcome.map, Scope.pop_truncate σ.depth_pos hd]
    exact .failed (Nat.le_of_succ_le hd)

variable (context : RenderContext)

theorem valueOr (e : LocatedExpression) (asMarkup : Bool) (h : Realizes m n) :
    Realizes (Meaning.valueOr context e asMarkup m) (Meaning.valueOr context e asMarkup n) :=
  .read fun σ v _ => by
    split
    · exact h σ
    · exact text _ σ

theorem condition (test : LocatedExpression) (h : Realizes m n) :
    Realizes (Meaning.condition context test m) (Meaning.condition context test n) :=
  .read fun σ v _ => by
    split
    · exact h σ
    · exact text _ σ

theorem define (kind : BindingKind) (name : String) (e : LocatedExpression) :
    Realizes (Meaning.define context kind name e) (Meaning.define context kind name e) :=
  .read fun _ _ h => .done (context.depth_bind h)

theorem repeatFrom (name : String) (loops : Fields Value) (length : Nat) (h : Realizes m n) :
    ∀ (items : List Value) (index : Nat),
      Realizes (Meaning.repeatFrom name loops length m index items)
        (Meaning.repeatFrom name loops length n index items)
  | [], _ => .text _
  | _ :: items, index =>
    ((change fun _ => RenderContext.depth_itemScope ..).append h).append
      (repeatFrom name loops length h items (index + 1))

theorem loop (name : String) (items : LocatedExpression) (h : Realizes m n) :
    Realizes (Meaning.loop context Meaning.inFrame name items m)
      (Meaning.loop context Meaning.framed name items n) :=
  .read fun σ found _ => by
    cases found with
    | none => exact h σ
    | some values =>
      simp only [Run.run_bind_done (Run.run_get σ)]
      exact (repeatFrom name _ _ h values 0).framed σ

theorem guard (handler : LocatedExpression) (asMarkup : Bool) (h : Realizes m n) :
    Realizes (Meaning.guard context Meaning.leaveFrames handler asMarkup m)
      (Meaning.guard context (fun _ behind => behind) handler asMarkup n) := fun σ => by
  have h := h σ
  simp only [Meaning.guard]
  generalize m.run σ = o at h
  generalize n.run σ = p at h
  cases h with
  | done h => exact .done h
  | @failed fault τ h =>
    simp only
    split
    · -- both go on in the variables without the frames of the failed part
      rw [Meaning.leaveFrames]
      have hd := Scope.depth_truncate σ.depth_pos h
      cases hh : context.handlerText handler asMarkup fault (τ.truncate σ.depth) with
      | ok s => rw [Run.run_read_ok hh]; exact .done hd
      | error fault => rw [Run.run_read_error hh]; exact .failed_here hd fault
    · exact .failed h

end Realizes

end MarkupTemplate
