import MarkupTemplate.Proofs.Evaluation.Frames

/-!
# What the frames bind to one variable

A scope as one variable sees it: for each frame what it binds to the variable (`Scope.bindings`). Definitions of
other variables change nothing in it, whichever frame they write to.
-/

namespace MarkupTemplate

namespace Scope

variable {σ τ : Scope} {x name : String} {v : Value} {d : Nat}

/-- What each frame binds to a variable, the innermost frame first. -/
def bindings (σ : Scope) (x : String) : List (Option Value) :=
  σ.inner.map (Fields.get? · x) ++ [σ.root.get? x]

theorem length_bindings (σ : Scope) (x : String) : (σ.bindings x).length = σ.depth := by
  simp [bindings, depth]

theorem get?_eq_findSome? (σ : Scope) (x : String) : σ.get? x = (σ.bindings x).findSome? id := by
  rw [get?, bindings, List.findSome?_append, List.findSome?_map]
  cases σ.root.get? x <;> rfl

@[simp] theorem bindings_push (σ : Scope) (x : String) : σ.push.bindings x = none :: σ.bindings x := rfl

theorem bindings_pop {head : Option Value} {rest : List (Option Value)} (h : σ.bindings x = head :: rest)
    (hr : rest ≠ []) : σ.pop.bindings x = rest := by
  obtain ⟨inner, root⟩ := σ
  cases inner with
  | nil =>
    cases h
    exact absurd rfl hr
  | cons frame inner =>
    cases h
    rfl

theorem bindings_defineLocal (σ : Scope) (h : x ≠ name) (v : Value) :
    (σ.defineLocal name v).bindings x = σ.bindings x := by
  obtain ⟨inner, root⟩ := σ
  cases inner <;> simp [bindings, defineLocal, Fields.get?_insert, h]

theorem bindings_defineLocal_self (σ : Scope) (v : Value) :
    (σ.defineLocal x v).bindings x = some v :: (σ.bindings x).tail := by
  obtain ⟨inner, root⟩ := σ
  cases inner <;> simp [bindings, defineLocal, Fields.get?_insert]

theorem bindings_defineGlobal (σ : Scope) (h : x ≠ name) (v : Value) :
    (σ.defineGlobal name v).bindings x = σ.bindings x := by
  simp [bindings, defineGlobal, Fields.get?_insert, h]

theorem map_get?_assign (h : x ≠ name) {frames more : List Frame} (ha : assign name v frames = some more) :
    more.map (Fields.get? · x) = frames.map (Fields.get? · x) := by
  induction frames generalizing more with
  | nil => cases ha
  | cons frame frames ih =>
    unfold assign at ha
    split at ha
    · cases ha
      simp [Fields.get?_insert, h]
    · obtain ⟨rest, hr, rfl⟩ := Option.map_eq_some_iff.1 ha
      rw [List.map_cons, List.map_cons, ih hr]

theorem bindings_set (h : x ≠ name) (hs : σ.set name v = .ok τ) : τ.bindings x = σ.bindings x := by
  unfold set at hs
  split at hs
  · next inner ha =>
    cases hs
    rw [bindings, bindings, map_get?_assign h ha]
  · split at hs
    · cases hs
      exact bindings_defineGlobal σ h v
    · cases hs

theorem get?_eq_of_bindings (h : τ.bindings x = σ.bindings x) : τ.get? x = σ.get? x := by
  rw [get?_eq_findSome?, h, ← get?_eq_findSome?]

theorem get?_push (σ : Scope) (x : String) : σ.push.get? x = σ.get? x := by
  rw [get?_eq_findSome?, get?_eq_findSome?, bindings_push]
  rfl

theorem bindings_truncate {above base : List (Option Value)} (h : σ.bindings x = above ++ base) (hb : base ≠ []) :
    (σ.truncate base.length).bindings x = base := by
  have hlength : σ.inner.length + 1 = above.length + base.length := by
    rw [← List.length_append, ← h, length_bindings]
    rfl
  have hpos : 0 < base.length := List.length_pos_iff.2 hb
  have hdrop : σ.inner.length - (base.length - 1) = above.length := by omega
  have hle : above.length ≤ (σ.inner.map (Fields.get? · x)).length := by
    rw [List.length_map]
    omega
  rw [truncate, hdrop]
  show (σ.inner.drop above.length).map (Fields.get? · x) ++ [σ.root.get? x] = base
  rw [List.map_drop, ← List.drop_append_of_le_length hle]
  show (σ.bindings x).drop above.length = base
  rw [h, List.drop_left]

end Scope

end MarkupTemplate
