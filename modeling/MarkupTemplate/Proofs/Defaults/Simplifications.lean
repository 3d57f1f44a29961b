import MarkupTemplate.Proofs.Compile.Balance
import MarkupTemplate.Proofs.Compile.Blocks
import MarkupTemplate.Proofs.Defaults.StartTags
import MarkupTemplate.Proofs.Render.Closures
import MarkupTemplate.Proofs.Render.Rewriting

/-!
# Operations on `default` fall away

A block can be simplified where an operation has `default` for its expression, at any depth, in macros and in what
fills their slots. What it means stays the same (`Block.Simplifies.operations_eq`), and no expression comes up that
was not there before.
-/

namespace MarkupTemplate

open Operation (expressionsAll expressionsFills)
open RenderContext (Defaults)

/-- In the second tag nothing may be computed for an attribute for which the first one computes `default`. -/
def TagPlan.Simplifies (tag tag' : TagPlan) : Prop :=
  tag' = tag ∨ ∃ name, Defaults name tag.computed ∧
    tag' = { tag with computed := tag.computed.filter (·.name != name) }

mutual

/-- The second block does the same as the first one, and operations on `default` may have fallen away. -/
inductive Block.Simplifies : List Operation → List Operation → Prop
  | nil : Block.Simplifies [] []
  | append {xs xs' ys ys' : List Operation} (hx : Block.Simplifies xs xs') (hy : Block.Simplifies ys ys') :
      Block.Simplifies (xs ++ ys) (xs' ++ ys')
  | joined {xs ys : List Operation} (h : Block.Simplifies xs ys) : Block.Simplifies xs (Block.ofOperations ys)
  | parted {xs ys : List Operation} (h : Block.Simplifies xs ys) : Block.Simplifies (Block.ofOperations xs) ys
  | literal (text : String) : Block.Simplifies [.literal text] [.literal text]
  | pushScope : Block.Simplifies [.pushScope] [.pushScope]
  | popScope : Block.Simplifies [.popScope] [.popScope]
  | define (kind : BindingKind) (name : String) (e : LocatedExpression) :
      Block.Simplifies [.define kind name e] [.define kind name e]
  | emit (e : LocatedExpression) (asMarkup : Bool) {xs ys : List Operation} (h : Block.Simplifies xs ys) :
      Block.Simplifies [.emit e asMarkup xs] [.emit e asMarkup ys]
  | emitted {e : LocatedExpression} (he : e.expression = .default) (asMarkup : Bool) {xs ys : List Operation}
      (h : Block.Simplifies xs ys) : Block.Simplifies [.emit e asMarkup xs] ys
  | condition (test : LocatedExpression) {xs ys : List Operation} (h : Block.Simplifies xs ys) :
      Block.Simplifies [.condition test xs] [.condition test ys]
  | holds {test : LocatedExpression} (he : test.expression = .default) {xs ys : List Operation}
      (h : Block.Simplifies xs ys) : Block.Simplifies [.condition test xs] ys
  | repeat (name : String) (items : LocatedExpression) {xs ys : List Operation} (h : Block.Simplifies xs ys) :
      Block.Simplifies [.repeat name items xs] [.repeat name items ys]
  | once (name : String) {items : LocatedExpression} (he : items.expression = .default) {xs ys : List Operation}
      (h : Block.Simplifies xs ys) : Block.Simplifies [.repeat name items xs] ys
  | element {tag tag' : TagPlan} (ht : tag.Simplifies tag') {xs ys : List Operation} (h : Block.Simplifies xs ys) :
      Block.Simplifies [.element tag xs] [.element tag' ys]
  | written {tag tag' : TagPlan} (ht : tag.Simplifies tag') {xs ys : List Operation} (h : Block.Simplifies xs ys) :
      Block.Simplifies [.element tag xs] (tag'.wrap ys)
  | onError {xs ys : List Operation} (h : Block.Simplifies xs ys) (handler : LocatedExpression) (asMarkup : Bool) :
      Block.Simplifies [.onError xs handler asMarkup] [.onError ys handler asMarkup]
  | callMacro (target : MacroTarget) {fills fills' : List (String × List Operation)}
      (h : Block.FillsSimplify fills fills') (arguments : List (String × Argument)) (location : Location) :
      Block.Simplifies [.callMacro target fills arguments location] [.callMacro target fills' arguments location]
  | slot (name : String) {xs ys : List Operation} (h : Block.Simplifies xs ys) :
      Block.Simplifies [.slot name xs] [.slot name ys]

/-- So does each of the fills. -/
inductive Block.FillsSimplify : List (String × List Operation) → List (String × List Operation) → Prop
  | nil : Block.FillsSimplify [] []
  | cons (name : String) {body body' : List Operation} {fills fills' : List (String × List Operation)}
      (h : Block.Simplifies body body') (hs : Block.FillsSimplify fills fills') :
      Block.FillsSimplify ((name, body) :: fills) ((name, body') :: fills')

end

namespace Block

variable {xs ys : Block} {tag tag' : TagPlan} {name : String}

theorem fillsSimplify_iff {fills fills' : List (String × Block)} :
    FillsSimplify fills fills' ↔ List.Forall₂ (Named Simplifies) fills fills' := by
  constructor
  · intro h
    induction fills generalizing fills' with
    | nil =>
      cases h
      exact .nil
    | cons fill fills ih =>
      cases h with
      | cons name h hs => exact .cons ⟨rfl, h⟩ (ih hs)
  · intro h
    induction h with
    | nil => exact .nil
    | @cons fill fill' _ _ h _ ih =>
      obtain ⟨name, body⟩ := fill
      obtain ⟨name', body'⟩ := fill'
      obtain ⟨rfl, hbody⟩ := h
      exact .cons _ hbody ih

theorem Simplifies.ofOperations (h : Simplifies xs ys) :
    Simplifies (Block.ofOperations xs) (Block.ofOperations ys) :=
  .parted (.joined h)

/-- A tag around what is simplified need not say what it computes as `default`. -/
theorem Simplifies.wrap (ht : tag.Simplifies tag') (h : Simplifies xs ys) :
    Simplifies (tag.wrap xs) (tag'.wrap ys) := by
  have htexts (pieces : List String) : Simplifies (pieces.map .literal) (pieces.map .literal) := by
    induction pieces with
    | nil => exact .nil
    | cons piece pieces ih => exact .append (.literal piece) ih
  have hwritten := Simplifies.written ht h
  obtain ⟨raw, attributes, computed, close, closing, omission⟩ := tag
  cases omission with
  | when e => exact hwritten
  | always =>
    obtain rfl | ⟨name, -, rfl⟩ := ht <;> exact h.ofOperations
  | never =>
    cases computed with
    | cons => exact hwritten
    | nil =>
      have htag : tag' = ⟨raw, attributes, [], close, closing, .never⟩ := by
        obtain rfl | ⟨name, -, rfl⟩ := ht <;> rfl
      subst htag
      have hclosing := htexts closing.toList
      rw [← Option.toList_map] at hclosing
      exact ((htexts [_]).append (h.append hclosing)).ofOperations

end Block

/-! ### Expressions -/

namespace Operation

theorem expressionsAll_append (xs ys : Block) :
    expressionsAll (xs ++ ys) = expressionsAll xs ++ expressionsAll ys := by
  induction xs with
  | nil => rfl
  | cons op xs ih => rw [List.cons_append, expressionsAll, expressionsAll, ih, List.append_assoc]

theorem expressionsAll_single (op : Operation) : expressionsAll [op] = op.expressions :=
  List.append_nil _

theorem expressionsAll_withoutTexts (ops : Block) :
    expressionsAll (Block.withoutTexts ops) = expressionsAll ops := by
  induction ops with
  | nil => rfl
  | cons op ops ih =>
    cases op with
    | literal text => exact ih
    | _ => exact congrArg (_ ++ ·) ih

theorem expressionsAll_ofOperations (ops : Block) :
    expressionsAll (Block.ofOperations ops) = expressionsAll ops := by
  rw [← expressionsAll_withoutTexts, Block.withoutTexts_ofOperations, expressionsAll_withoutTexts]

theorem expressionsAll_wrap_subset (tag : TagPlan) (body : Block) :
    expressionsAll (tag.wrap body) ⊆ expressionsAll [.element tag body] := by
  have hbody : expressionsAll body ⊆ expressionsAll [.element tag body] := by
    rw [expressionsAll_single]
    exact List.subset_append_right _ _
  unfold TagPlan.wrap
  split
  · rwa [expressionsAll_ofOperations]
  · rw [expressionsAll_ofOperations, List.cons_append, expressionsAll, expressionsAll_append]
    refine List.append_subset.2 ⟨List.nil_subset _, List.append_subset.2 ⟨hbody, ?_⟩⟩
    cases tag.closing <;> exact List.nil_subset _
  · exact List.Subset.refl _

end Operation

section

variable {e : LocatedExpression} {es es' others others' : List LocatedExpression}

theorem mem_append_imp (hes : e ∈ es' → e ∈ es) (hothers : e ∈ others' → e ∈ others) (he : e ∈ es' ++ others') :
    e ∈ es ++ others :=
  List.mem_append.2 ((List.mem_append.1 he).imp hes hothers)

theorem mem_cons_imp {v : LocatedExpression} (hes : e ∈ es' → e ∈ es) (he : e ∈ v :: es') : e ∈ v :: es :=
  List.mem_cons.2 ((List.mem_cons.1 he).imp_right hes)

end

theorem TagPlan.Simplifies.mem_expressions {tag tag' : TagPlan} {e : LocatedExpression} (h : tag.Simplifies tag')
    (he : e ∈ tag'.expressions) : e ∈ tag.expressions := by
  obtain rfl | ⟨name, -, rfl⟩ := h
  · exact he
  · exact mem_append_imp (fun he => List.map_subset _ (List.filter_subset_self _) he) id he

mutual

/-- No expression comes up. -/
theorem Block.Simplifies.mem_expressions {e : LocatedExpression} : ∀ {xs ys : List Operation},
    Block.Simplifies xs ys → e ∈ expressionsAll ys → e ∈ expressionsAll xs
  | _, _, .nil, he => he
  | _, _, .append hx hy, he => by
    rw [Operation.expressionsAll_append] at he ⊢
    exact mem_append_imp hx.mem_expressions hy.mem_expressions he
  | _, _, .joined h, he => by
    rw [Operation.expressionsAll_ofOperations] at he
    exact h.mem_expressions he
  | _, _, .parted h, he => by
    rw [Operation.expressionsAll_ofOperations]
    exact h.mem_expressions he
  | _, _, .literal _, he => he
  | _, _, .pushScope, he => he
  | _, _, .popScope, he => he
  | _, _, .define .., he => he
  | _, _, .emit _ _ h, he => mem_append_imp (mem_cons_imp h.mem_expressions) id he
  | _, _, .emitted _ _ h, he => List.mem_append_left _ (List.mem_cons_of_mem _ (h.mem_expressions he))
  | _, _, .condition _ h, he => mem_append_imp (mem_cons_imp h.mem_expressions) id he
  | _, _, .holds _ h, he => List.mem_append_left _ (List.mem_cons_of_mem _ (h.mem_expressions he))
  | _, _, .repeat _ _ h, he => mem_append_imp (mem_cons_imp h.mem_expressions) id he
  | _, _, .once _ _ h, he => List.mem_append_left _ (List.mem_cons_of_mem _ (h.mem_expressions he))
  | _, _, .element ht h, he => mem_append_imp (mem_append_imp ht.mem_expressions h.mem_expressions) id he
  | _, _, .written ht h, he =>
    mem_append_imp (mem_append_imp ht.mem_expressions h.mem_expressions) id
      (Operation.expressionsAll_wrap_subset _ _ he)
  | _, _, .onError h _ _, he => mem_append_imp (mem_append_imp h.mem_expressions id) id he
  | _, _, .callMacro _ h _ _, he =>
    mem_append_imp (mem_append_imp (mem_append_imp id h.mem_expressions) id) id he
  | _, _, .slot _ h, he => mem_append_imp h.mem_expressions id he

theorem Block.FillsSimplify.mem_expressions {e : LocatedExpression} :
    ∀ {fills fills' : List (String × List Operation)}, Block.FillsSimplify fills fills' →
      e ∈ expressionsFills fills' → e ∈ expressionsFills fills
  | _, _, .nil, he => he
  | _, _, .cons _ h hs, he => mem_append_imp h.mem_expressions hs.mem_expressions he

end

/-! ### Meanings -/

/-- The environments are made by the same calls, and the fills of the second are simplified. -/
inductive Environment.Simplifies : Environment → Environment → Prop
  | main : Environment.Simplifies .main .main
  | call {fills fills' : List (String × Block)} {caller caller' : Environment}
      (hf : Block.FillsSimplify fills fills') (h : Environment.Simplifies caller caller') :
      Environment.Simplifies (.call fills caller) (.call fills' caller')

theorem Environment.Simplifies.fill? {env env' : Environment} (h : env.Simplifies env') (name : String) :
    Option.Rel (fun fill fill' => Block.Simplifies fill.1 fill'.1 ∧ fill.2.Simplifies fill'.2) (env.fill? name)
      (env'.fill? name) := by
  cases h with
  | main => exact .none
  | @call fills fills' caller caller' hf h =>
    have hl := rel_lookup (Block.fillsSimplify_iff.1 hf) name
    simp only [Environment.fill?]
    generalize fills.lookup name = body at hl ⊢
    generalize fills'.lookup name = body' at hl ⊢
    cases hl with
    | none => exact .none
    | some hb => exact .some ⟨hb, h⟩

namespace Meaning

variable {context : RenderContext} {macros : List Macro} {enter enter' : Environment → Block → Meaning}
  {env env' : Environment}

theorem value_default {e : LocatedExpression} (he : e.expression = .default) (σ : Scope) :
    context.value σ e = .ok .default := by
  rw [RenderContext.value, he]
  rfl

theorem valueOr_default {e : LocatedExpression} (he : e.expression = .default) (asMarkup : Bool) (m : Meaning) :
    valueOr context e asMarkup m = m :=
  (read_const (value_default he) _).trans (if_pos rfl)

theorem condition_default {test : LocatedExpression} (he : test.expression = .default) (m : Meaning) :
    condition context test m = m :=
  (read_const (value_default he) _).trans (if_pos rfl)

theorem loop_default {items : LocatedExpression} (he : items.expression = .default) (name : String) (m : Meaning) :
    loop context inFrame name items m = m := by
  have hitems : ∀ σ, context.loopItems σ items = .ok none := fun σ => by
    rw [RenderContext.loopItems, value_default he]
    rfl
  exact read_const hitems _

theorem element_simplified {tag tag' : TagPlan} (h : tag.Simplifies tag') (m : Meaning) :
    element context tag m = element { context with macros } tag' m := by
  have hstart : (RenderContext.startTag { context with macros } · tag') = (context.startTag · tag) := by
    rw [context.startTag_macros]
    obtain rfl | ⟨name, hd, rfl⟩ := h
    · rfl
    · exact funext fun σ => context.startTag_filter σ hd
  have homission : tag'.omission = tag.omission ∧ tag'.closing = tag.closing := by
    obtain rfl | ⟨name, -, rfl⟩ := h <;> exact ⟨rfl, rfl⟩
  unfold element
  rw [hstart, homission.1, homission.2]
  rfl

theorem callMacro_simplified (hm : List.Forall₂ (Macro.Matches Block.Simplifies) context.macros macros)
    (henter : ∀ env env' xs ys, env.Simplifies env' → Block.Simplifies xs ys → enter env xs = enter' env' ys)
    (he : env.Simplifies env') (callee : MacroTarget) {fills fills' : List (String × Block)}
    (hf : Block.FillsSimplify fills fills') (arguments : List (String × Argument)) (location : Location) :
    operation context enter env (.callMacro callee fills arguments location) =
      operation { context with macros } enter' env' (.callMacro callee fills' arguments location) := by
  ext σ
  have hprepared := RenderContext.prepareCall_matching hm σ callee arguments location
  simp only [operation]
  generalize hc : context.prepareCall σ callee arguments location = c at hprepared
  generalize hc' : RenderContext.prepareCall { context with macros } σ callee arguments location = c' at hprepared
  cases hprepared with
  | error fault =>
    have hr : (Run.read (context.prepareCall · callee arguments location)).run σ = .failed fault σ :=
      Run.run_read_error hc
    have hr' : (Run.read (RenderContext.prepareCall { context with macros } · callee arguments location)).run σ =
      .failed fault σ := Run.run_read_error hc'
    rw [Run.run_bind_failed hr, Run.run_bind_failed hr']
  | @ok m m' bindings hmatch =>
    have hr : (Run.read (context.prepareCall · callee arguments location)).run σ = .done (m, bindings) σ :=
      Run.run_read_ok hc
    have hr' : (Run.read (RenderContext.prepareCall { context with macros } · callee arguments location)).run σ =
      .done (m', bindings) σ := Run.run_read_ok hc'
    rw [Run.run_bind_done hr, Run.run_bind_done hr']
    dsimp only
    rw [henter _ _ _ _ (.call hf he) hmatch.body]

theorem slot_simplified
    (henter : ∀ env env' xs ys, env.Simplifies env' → Block.Simplifies xs ys → enter env xs = enter' env' ys)
    (he : env.Simplifies env') (name : String) {xs ys : Block}
    (h : operations context enter env xs = operations { context with macros } enter' env' ys) :
    operation context enter env (.slot name xs) = operation { context with macros } enter' env' (.slot name ys) := by
  have hfill := he.fill? name
  simp only [operation]
  generalize env.fill? name = fill at hfill ⊢
  generalize env'.fill? name = fill' at hfill ⊢
  cases hfill with
  | none => exact h
  | some hfill => exact henter _ _ _ _ hfill.2 hfill.1

/-- What is simplified means the same, where macros are called and slots are filled with what is simplified too. -/
theorem operations_simplified (hm : List.Forall₂ (Macro.Matches Block.Simplifies) context.macros macros)
    (henter : ∀ env env' xs ys, env.Simplifies env' → Block.Simplifies xs ys → enter env xs = enter' env' ys)
    (he : env.Simplifies env') : ∀ {xs ys : List Operation}, Block.Simplifies xs ys →
      operations context enter env xs = operations { context with macros } enter' env' ys
  | _, _, .nil => rfl
  | _, _, .append hx hy => by
    rw [operations_append, operations_append, operations_simplified hm henter he hx,
      operations_simplified hm henter he hy]
  | _, _, .joined h => by rw [operations_ofOperations, operations_simplified hm henter he h]
  | _, _, .parted h => by rw [operations_ofOperations, operations_simplified hm henter he h]
  | _, _, .literal _ => rfl
  | _, _, .pushScope => rfl
  | _, _, .popScope => rfl
  | _, _, .define .. => rfl
  | _, _, .emit e asMarkup h => by
    rw [operations_singleton, operations_singleton, operation, operation, operations_simplified hm henter he h]
    rfl
  | _, _, .emitted hd asMarkup h => by
    rw [operations_singleton, operation, valueOr_default hd, operations_simplified hm henter he h]
  | _, _, .condition test h => by
    rw [operations_singleton, operations_singleton, operation, operation, operations_simplified hm henter he h]
    rfl
  | _, _, .holds hd h => by
    rw [operations_singleton, operation, condition_default hd, operations_simplified hm henter he h]
  | _, _, .repeat name items h => by
    rw [operations_singleton, operations_singleton, operation, operation, operations_simplified hm henter he h]
    rfl
  | _, _, .once name hd h => by
    rw [operations_singleton, operation, loop_default hd, operations_simplified hm henter he h]
  | _, _, .element ht h => by
    rw [operations_singleton, operations_singleton, operation, operation, operations_simplified hm henter he h,
      element_simplified ht]
  | _, _, .written ht h => by
    rw [operations_singleton, operation, operations_wrap, operations_simplified hm henter he h,
      element_simplified ht]
  | _, _, .onError h handler asMarkup => by
    rw [operations_singleton, operations_singleton, operation, operation, operations_simplified hm henter he h]
    rfl
  | _, _, .callMacro target hf arguments location => by
    rw [operations_singleton, operations_singleton]
    exact callMacro_simplified hm henter he target hf arguments location
  | _, _, .slot name h => by
    rw [operations_singleton, operations_singleton]
    exact slot_simplified henter he name (operations_simplified hm henter he h)

/-- A block that is simplified means the same. -/
theorem block_simplified (hm : List.Forall₂ (Macro.Matches Block.Simplifies) context.macros macros) :
    ∀ (bound : Nat) {env env' : Environment} {xs ys : Block}, env.Simplifies env' → Block.Simplifies xs ys →
      block context bound env xs = block { context with macros } bound env' ys
  | 0, _, _, _, _, he, h => operations_simplified hm (fun _ _ _ _ _ _ => rfl) he h
  | bound + 1, _, _, _, _, he, h =>
    operations_simplified hm (fun _ _ _ _ he h => block_simplified hm bound he h) he h

end Meaning

end MarkupTemplate
