import MarkupTemplate.Evaluation.Scope

/-!
# The frames of a scope

How many frames an operation on a scope leaves, and what is left of the frames when a scope is cut back
to fewer of them.
-/

namespace MarkupTemplate

namespace Scope

variable {σ τ : Scope} {d e : Nat}

theorem depth_pos (σ : Scope) : 0 < σ.depth := Nat.succ_pos _

@[simp] theorem depth_push (σ : Scope) : σ.push.depth = σ.depth + 1 := rfl

theorem depth_pop (h : τ.depth = d + 1) (hd : 0 < d) : τ.pop.depth = d := by
  simp only [depth, pop, List.length_tail] at h ⊢
  omega

@[simp] theorem depth_defineLocal (σ : Scope) (name : String) (v : Value) :
    (σ.defineLocal name v).depth = σ.depth := by
  unfold defineLocal
  split <;> rename_i h <;> simp [depth, h]

@[simp] theorem depth_defineGlobal (σ : Scope) (name : String) (v : Value) :
    (σ.defineGlobal name v).depth = σ.depth := rfl

theorem length_assign {name : String} {v : Value} {frames more : List Frame}
    (h : assign name v frames = some more) : more.length = frames.length := by
  induction frames generalizing more with
  | nil => cases h
  | cons frame frames ih =>
    unfold assign at h
    split at h
    · cases h; rfl
    · obtain ⟨rest, hr, rfl⟩ := Option.map_eq_some_iff.1 h
      rw [List.length_cons, List.length_cons, ih hr]

theorem depth_set {name : String} {v : Value} (h : σ.set name v = .ok τ) : τ.depth = σ.depth := by
  unfold set at h
  split at h
  · rename_i inner ha
    cases h
    simp only [depth, length_assign ha]
  · split at h
    · cases h; rfl
    · cases h

/-! ### Cutting back -/

theorem depth_truncate (hd : 0 < d) (h : d ≤ σ.depth) : (σ.truncate d).depth = d := by
  simp only [depth, truncate, List.length_drop] at h ⊢
  omega

@[simp] theorem truncate_depth (σ : Scope) : σ.truncate σ.depth = σ := by
  simp [truncate, depth]

theorem truncate_eq_self (h : σ.depth = d) : σ.truncate d = σ := by
  rw [← h, truncate_depth]

theorem truncate_truncate (he : 0 < e) (hed : e ≤ d) (hd : d ≤ σ.depth) :
    (σ.truncate d).truncate e = σ.truncate e := by
  simp only [depth] at hd
  simp only [truncate, List.drop_drop, List.length_drop, Scope.mk.injEq, and_true]
  congr 1
  omega

theorem pop_truncate (hd : 0 < d) (h : d + 1 ≤ σ.depth) : (σ.truncate (d + 1)).pop = σ.truncate d := by
  simp only [depth] at h
  simp only [truncate, pop, List.tail_drop, Scope.mk.injEq, and_true]
  congr 1
  omega

theorem truncate_push (h : d ≤ σ.depth) (hd : 0 < d) : σ.push.truncate d = σ.truncate d := by
  simp only [depth] at h
  have hl : σ.inner.length + 1 - (d - 1) = σ.inner.length - (d - 1) + 1 := by omega
  simp only [truncate, push, List.length_cons, hl, List.drop_succ_cons]

theorem truncate_pop (h : d < σ.depth) (hd : 0 < d) : σ.pop.truncate d = σ.truncate d := by
  simp only [depth] at h
  simp only [truncate, pop, List.length_tail]
  rw [← List.drop_one, List.drop_drop]
  congr 2
  omega

theorem truncate_defineLocal (h : d < σ.depth) (hd : 0 < d) (name : String) (v : Value) :
    (σ.defineLocal name v).truncate d = σ.truncate d := by
  obtain ⟨inner, root⟩ := σ
  cases inner with
  | nil =>
    simp only [depth, List.length_nil] at h
    omega
  | cons frame outer =>
    simp only [depth, List.length_cons] at h
    have hl : outer.length + 1 - (d - 1) = outer.length - (d - 1) + 1 := by omega
    simp only [defineLocal, truncate, List.length_cons, hl, List.drop_succ_cons]

end Scope

end MarkupTemplate
