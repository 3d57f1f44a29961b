import MarkupTemplate.Proofs.Render.Meaning

/-!
# The bound on macros inside each other

A meaning that comes to an end within some bound does the same within every larger one
(`Meaning.block_below`), so the bound decides whether there is an outcome, never which.
-/

namespace MarkupTemplate

namespace Run

variable {σ α β : Type}

/-- Where the first run comes to an end, the second does the same. -/
def Below (x y : Run σ α) : Prop :=
  ∀ s, x.run s = .exhausted ∨ x.run s = y.run s

namespace Below

variable {x y z : Run σ α}

theorem refl (x : Run σ α) : x.Below x := fun _ => .inr rfl

theorem exhaust (x : Run σ α) : Run.exhaust.Below x := fun _ => .inl rfl

theorem trans (h : x.Below y) (h' : y.Below z) : x.Below z := fun s => by
  rcases h s with h | h
  · exact .inl h
  · rw [h]; exact h' s

theorem bind {f g : α → Run σ β} (h : x.Below y) (hf : ∀ a, (f a).Below (g a)) :
    (x >>= f).Below (y >>= g) := fun s => by
  rcases h s with h | h
  · exact .inl (run_bind_exhausted h)
  · cases hx : x.run s with
    | done a t => rw [run_bind_done hx, run_bind_done (h ▸ hx)]; exact hf a t
    | failed fault t => rw [run_bind_failed hx, run_bind_failed (h ▸ hx)]; exact .inr rfl
    | exhausted => exact .inl (run_bind_exhausted hx)

end Below

end Run

namespace Meaning

open Run (Below)

variable {m m' n n' : Meaning}

theorem append_below (hm : m.Below m') (hn : n.Below n') : (m ++ n).Below (m' ++ n') :=
  hm.bind fun _ => hn.bind fun _ => .refl _

theorem inFrame_below (h : m.Below m') : (inFrame m).Below (inFrame m') :=
  append_below (append_below (.refl _) h) (.refl _)

variable (context : RenderContext)

theorem element_below (tag : TagPlan) (h : m.Below m') :
    (element context tag m).Below (element context tag m') :=
  .bind (.refl _) fun omitted => by
    cases omitted with
    | true => exact h
    | false => exact .bind (.refl _) fun _ => append_below (append_below (.refl _) h) (.refl _)

theorem repeatFrom_below (name : String) (loops : Fields Value) (length : Nat) (h : m.Below m') :
    ∀ (items : List Value) (index : Nat),
      (repeatFrom name loops length m index items).Below (repeatFrom name loops length m' index items)
  | [], _ => .refl _
  | _ :: items, index =>
    append_below (append_below (.refl _) h) (repeatFrom_below name loops length h items (index + 1))

theorem guard_below (leave : Scope → Scope → Scope) (handler : LocatedExpression) (asMarkup : Bool)
    (h : m.Below m') :
    (guard context leave handler asMarkup m).Below (guard context leave handler asMarkup m') :=
  fun σ => by
    simp only [guard]
    rcases h σ with h | h
    · exact .inl (by rw [h])
    · exact .inr (by rw [h])

section

variable {context} {enter enter' : Environment → Block → Meaning}

mutual

theorem operation_below (h : ∀ env b, (enter env b).Below (enter' env b)) (env : Environment) :
    ∀ op, (operation context enter env op).Below (operation context enter' env op)
  | .literal _ => .refl _
  | .pushScope => .refl _
  | .popScope => .refl _
  | .define .. => .refl _
  | .emit _ _ fallback => .bind (.refl _) fun v => by
    split
    · exact operations_below h env fallback
    · exact .refl _
  | .condition _ body => .bind (.refl _) fun v => by
    split
    · exact operations_below h env body
    · exact .refl _
  | .repeat name _ body => .bind (.refl _) fun found => by
    have hb := operations_below h env body
    cases found with
    | none => exact hb
    | some values =>
      exact .bind (.refl _) fun _ => inFrame_below (repeatFrom_below name _ _ hb values 0)
  | .element tag body => element_below context tag (operations_below h env body)
  | .onError body handler asMarkup =>
    guard_below context _ handler asMarkup (operations_below h env body)
  | .callMacro _ fills _ _ => .bind (.refl _) fun (m, _) =>
    inFrame_below (append_below (.refl _) (h (.call fills env) m.body))
  | .slot name fallback => by
    simp only [operation]
    split
    · exact operations_below h env fallback
    · exact h _ _

theorem operations_below (h : ∀ env b, (enter env b).Below (enter' env b)) (env : Environment) :
    ∀ ops, (operations context enter env ops).Below (operations context enter' env ops)
  | [] => .refl _
  | op :: ops => append_below (operation_below h env op) (operations_below h env ops)

end

end

theorem block_below_succ : ∀ (bound : Nat) (env : Environment) (b : Block),
    (block context bound env b).Below (block context (bound + 1) env b)
  | 0, env, b => operations_below (fun _ _ => .exhaust _) env b
  | bound + 1, env, b => operations_below (block_below_succ bound) env b

theorem block_below (bound more : Nat) (env : Environment) (b : Block) :
    (block context bound env b).Below (block context (bound + more) env b) := by
  induction more with
  | zero => exact .refl _
  | succ more ih => exact ih.trans (block_below_succ context _ env b)

end Meaning

end MarkupTemplate
