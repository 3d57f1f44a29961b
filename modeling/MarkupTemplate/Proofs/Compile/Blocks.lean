import MarkupTemplate.Compile.Block
import MarkupTemplate.Proofs.Render.Meaning

/-!
# Meaning of blocks put together

Joining texts and writing static tags as texts changes no meaning.
-/

namespace MarkupTemplate

namespace Meaning

variable {context : RenderContext} {enter : Environment → Block → Meaning} {env : Environment}

@[simp] theorem operations_nil : operations context enter env [] = text "" := rfl

theorem operations_cons (op : Operation) (ops : List Operation) :
    operations context enter env (op :: ops) =
      operation context enter env op ++ operations context enter env ops := rfl

@[simp] theorem operations_singleton (op : Operation) :
    operations context enter env [op] = operation context enter env op := by
  rw [operations_cons, operations_nil, append_empty]

@[simp] theorem operations_append (xs ys : List Operation) :
    operations context enter env (xs ++ ys) =
      operations context enter env xs ++ operations context enter env ys := by
  induction xs with
  | nil => rw [List.nil_append, operations_nil, empty_append]
  | cons op xs ih => rw [List.cons_append, operations_cons, operations_cons, ih, append_assoc]

theorem operations_push (block : Block) (op : Operation) :
    operations context enter env (block.push op).reverse =
      operations context enter env block.reverse ++ operation context enter env op := by
  unfold Block.push
  split
  · rename_i s before rest
    rw [List.reverse_cons, List.reverse_cons, operations_append, operations_append, append_assoc]
    simp only [operations_singleton, operation, text_append]
  · rename_i s _
    split
    · rename_i hs
      rw [operation, String.isEmpty_iff.1 hs, append_empty]
    · rw [List.reverse_cons, operations_append, operations_singleton]
  · rw [List.reverse_cons, operations_append, operations_singleton]

theorem operations_ofOperations (ops : List Operation) :
    operations context enter env (Block.ofOperations ops) = operations context enter env ops := by
  have h : ∀ (ops : List Operation) (block : Block),
      operations context enter env (ops.foldl Block.push block).reverse =
        operations context enter env block.reverse ++ operations context enter env ops := by
    intro ops
    induction ops with
    | nil => exact fun block => (append_empty _).symm
    | cons op ops ih =>
      intro block
      rw [List.foldl_cons, ih, operations_push, operations_cons, append_assoc]
  rw [Block.ofOperations, h, List.reverse_nil, operations_nil, empty_append]

/-! ### Tags -/

theorem read_map {α β : Type} (f : Scope → Except RenderFault α) (g : α → β) (m : β → Meaning) :
    (Run.read fun σ => g <$> f σ) >>= m = Run.read f >>= fun a => m (g a) := by
  ext σ
  cases hf : f σ with
  | ok a =>
    have hg : (Run.read fun σ => g <$> f σ).run σ = .done (g a) σ :=
      Run.run_read_ok (by rw [hf]; rfl)
    rw [Run.run_bind_done hg, Run.run_bind_done (Run.run_read_ok hf)]
  | error fault =>
    have hg : (Run.read fun σ => g <$> f σ).run σ = .failed fault σ :=
      Run.run_read_error (by rw [hf]; rfl)
    rw [Run.run_bind_failed hg, Run.run_bind_failed (Run.run_read_error hf)]

theorem read_const {α : Type} {f : Scope → Except RenderFault α} {a : α} (h : ∀ σ, f σ = .ok a)
    (m : α → Meaning) : Run.read f >>= m = m a := by
  ext σ
  exact Run.run_bind_done (Run.run_read_ok (h σ))

theorem writeAttributes_nil (format : ValueFormatter) (attributes : List StaticAttribute) :
    writeAttributes format [] attributes =
      (String.join (attributes.map StaticAttribute.source), []) := by
  induction attributes with
  | nil => rfl
  | cons a attributes ih => simp [writeAttributes, ComputedValues.take?, ih, String.join_cons]

theorem startTag_nil (format : ValueFormatter) (tag : TagPlan) :
    tag.startTag format [] = tag.staticStart := by
  simp [TagPlan.startTag, TagPlan.staticStart, writeAttributes_nil]

theorem operations_wrap (tag : TagPlan) (body : Block) :
    operations context enter env (tag.wrap body) =
      element context tag (operations context enter env body) := by
  unfold TagPlan.wrap
  split
  · rename_i ho
    rw [operations_ofOperations, element, read_const (a := true) fun σ => by rw [ho]; rfl, if_pos rfl]
  · rename_i ho hc
    rw [element, read_const (a := false) fun σ => by rw [ho]; rfl, if_neg (by simp),
      read_const (a := tag.staticStart) fun σ => by
        rw [RenderContext.startTag, hc, ← startTag_nil context.format]; rfl,
      operations_ofOperations, List.cons_append, operations_cons, operations_append, append_assoc]
    congr 2
    cases tag.closing <;> simp [operation]
  · rw [operations_singleton, operation]

end Meaning

end MarkupTemplate
