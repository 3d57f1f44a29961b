import MarkupTemplate.Proofs.Defaults.Removals

/-!
# Expressions replaced by `default`

Where a removal takes out a directive, the program has expressions that come from it. A program is recast if some of
these are replaced by `default` and all else stays. What is put together from recast parts is recast
(`RecastsAll.ofOperations`, `RecastsAll.wrap`).
-/

namespace MarkupTemplate

/-- `default` in the place of the expression. -/
def LocatedExpression.asDefault (e : LocatedExpression) : LocatedExpression :=
  { e with expression := .default }

namespace Removal

variable (r : Removal)

/-- Computed attributes of which some that the removal takes out are `default` now. -/
def RecastsAttribute (a a' : ComputedAttribute) : Prop :=
  a' = a ∨ r = .entry a.name a.value.location ∧ a' = ⟨a.name, a.value.asDefault⟩

mutual

/-- The operations differ at most in expressions of what is taken out, which are `default` in the second. -/
inductive Recasts : Operation → Operation → Prop
  | literal (text : String) : Recasts (.literal text) (.literal text)
  | emit {e e' : LocatedExpression} {asMarkup : Bool} {fallback fallback' : List Operation}
      (he : e' = e ∨ (r = .content e.location ∨ r = .replace e.location) ∧ e' = e.asDefault)
      (hb : RecastsAll fallback fallback') : Recasts (.emit e asMarkup fallback) (.emit e' asMarkup fallback')
  | pushScope : Recasts .pushScope .pushScope
  | popScope : Recasts .popScope .popScope
  | define (kind : BindingKind) (name : String) (e : LocatedExpression) :
      Recasts (.define kind name e) (.define kind name e)
  | condition {test test' : LocatedExpression} {body body' : List Operation}
      (he : test' = test ∨ r = .condition test.location ∧ test' = test.asDefault)
      (hb : RecastsAll body body') : Recasts (.condition test body) (.condition test' body')
  | repeat {name : String} {items items' : LocatedExpression} {body body' : List Operation}
      (he : items' = items ∨ r = .loop items.location ∧ items' = items.asDefault)
      (hb : RecastsAll body body') : Recasts (.repeat name items body) (.repeat name items' body')
  | element {tag : TagPlan} {computed : List ComputedAttribute} {body body' : List Operation}
      (hc : List.Forall₂ r.RecastsAttribute tag.computed computed) (hb : RecastsAll body body') :
      Recasts (.element tag body) (.element { tag with computed } body')
  | onError {body body' : List Operation} {handler : LocatedExpression} {asMarkup : Bool}
      (hb : RecastsAll body body') : Recasts (.onError body handler asMarkup) (.onError body' handler asMarkup)
  | callMacro {target : MacroTarget} {fills fills' : List (String × List Operation)}
      {arguments : List (String × Argument)} {location : Location} (hf : RecastsFills fills fills') :
      Recasts (.callMacro target fills arguments location) (.callMacro target fills' arguments location)
  | slot {name : String} {fallback fallback' : List Operation} (hb : RecastsAll fallback fallback') :
      Recasts (.slot name fallback) (.slot name fallback')

/-- The blocks do, operation by operation. -/
inductive RecastsAll : List Operation → List Operation → Prop
  | nil : RecastsAll [] []
  | cons {op op' : Operation} {ops ops' : List Operation} (h : Recasts op op') (hs : RecastsAll ops ops') :
      RecastsAll (op :: ops) (op' :: ops')

/-- The fills do, slot by slot. -/
inductive RecastsFills : List (String × List Operation) → List (String × List Operation) → Prop
  | nil : RecastsFills [] []
  | cons {name : String} {body body' : List Operation} {fills fills' : List (String × List Operation)}
      (h : RecastsAll body body') (hs : RecastsFills fills fills') :
      RecastsFills ((name, body) :: fills) ((name, body') :: fills')

end

variable {r}

theorem recastsFills_iff {fills fills' : List (String × List Operation)} :
    r.RecastsFills fills fills' ↔ List.Forall₂ (Named r.RecastsAll) fills fills' := by
  constructor
  · intro h
    induction fills generalizing fills' with
    | nil =>
      cases h
      exact .nil
    | cons fill fills ih =>
      cases h with
      | cons h hs => exact .cons ⟨rfl, h⟩ (ih hs)
  · intro h
    induction h with
    | nil => exact .nil
    | @cons fill fill' _ _ h _ ih =>
      obtain ⟨name, body⟩ := fill
      obtain ⟨name', body'⟩ := fill'
      obtain ⟨rfl, hbody⟩ := h
      exact .cons hbody ih

theorem forall₂_recastsAttribute (computed : List ComputedAttribute) :
    List.Forall₂ r.RecastsAttribute computed computed :=
  List.forall₂_same.2 fun _ _ => .inl rfl

mutual

/-- Nothing has to be replaced. -/
theorem Recasts.refl : ∀ op : Operation, r.Recasts op op
  | .literal text => .literal text
  | .emit _ _ fallback => .emit (.inl rfl) (RecastsAll.refl fallback)
  | .pushScope => .pushScope
  | .popScope => .popScope
  | .define kind name e => .define kind name e
  | .condition _ body => .condition (.inl rfl) (RecastsAll.refl body)
  | .repeat _ _ body => .repeat (.inl rfl) (RecastsAll.refl body)
  | .element tag body => .element (forall₂_recastsAttribute tag.computed) (RecastsAll.refl body)
  | .onError body _ _ => .onError (RecastsAll.refl body)
  | .callMacro _ fills _ _ => .callMacro (RecastsFills.refl fills)
  | .slot _ fallback => .slot (RecastsAll.refl fallback)

theorem RecastsAll.refl : ∀ ops : List Operation, r.RecastsAll ops ops
  | [] => .nil
  | op :: ops => .cons (Recasts.refl op) (RecastsAll.refl ops)

theorem RecastsFills.refl : ∀ fills : List (String × List Operation), r.RecastsFills fills fills
  | [] => .nil
  | (_, body) :: fills => .cons (RecastsAll.refl body) (RecastsFills.refl fills)

end

namespace RecastsAll

variable {ops ops' more more' block block' : List Operation} {op op' : Operation}

theorem single (h : r.Recasts op op') : r.RecastsAll [op] [op'] := .cons h .nil

theorem append (h : r.RecastsAll ops ops') (hm : r.RecastsAll more more') :
    r.RecastsAll (ops ++ more) (ops' ++ more') := by
  induction ops generalizing ops' with
  | nil =>
    cases h
    exact hm
  | cons op ops ih =>
    cases h with
    | cons h hs => exact .cons h (ih hs)

theorem reverse (h : r.RecastsAll ops ops') : r.RecastsAll ops.reverse ops'.reverse := by
  induction ops generalizing ops' with
  | nil =>
    cases h
    exact .nil
  | cons op ops ih =>
    cases h with
    | cons h hs =>
      rw [List.reverse_cons, List.reverse_cons]
      exact (ih hs).append (single h)

theorem push (hb : r.RecastsAll block block') (h : r.Recasts op op') :
    r.RecastsAll (Block.push block op) (Block.push block' op') := by
  have hpush := single h |>.append hb
  cases h with
  | literal text =>
    have hnew : r.RecastsAll (if text.isEmpty then block else .literal text :: block)
        (if text.isEmpty then block' else .literal text :: block') := by
      split
      · exact hb
      · exact hpush
    cases hb with
    | nil => exact hnew
    | cons hfirst hrest =>
      -- only a text before is joined
      cases hfirst with
      | literal before => exact .cons (.literal _) hrest
      | _ => exact hnew
  | _ => exact hpush

theorem ofOperations (h : r.RecastsAll ops ops') :
    r.RecastsAll (Block.ofOperations ops) (Block.ofOperations ops') := by
  have hfold {ops ops' block block' : List Operation} (h : r.RecastsAll ops ops')
      (hb : r.RecastsAll block block') :
      r.RecastsAll (ops.foldl Block.push block) (ops'.foldl Block.push block') := by
    induction ops generalizing ops' block block' with
    | nil =>
      cases h
      exact hb
    | cons op ops ih =>
      cases h with
      | cons h hs =>
        rw [List.foldl_cons, List.foldl_cons]
        exact ih hs (hb.push h)
  exact (hfold h .nil).reverse

theorem wrap {tag : TagPlan} {computed : List ComputedAttribute}
    (hc : List.Forall₂ r.RecastsAttribute tag.computed computed) (hb : r.RecastsAll block block') :
    r.RecastsAll (tag.wrap block) (TagPlan.wrap { tag with computed } block') := by
  have helement := single (Recasts.element hc hb)
  obtain ⟨name, attributes, computed', close, closing, omission⟩ := tag
  cases omission with
  | always => exact hb.ofOperations
  | when e => exact helement
  | never =>
    cases hc with
    | nil => exact (cons (.literal _) (hb.append (refl _))).ofOperations
    | cons => exact helement

end RecastsAll

/-! ### Expressions -/

section

variable {e v v' : LocatedExpression} {es es' others others' : List LocatedExpression}

theorem mem_append_of_recasts (hes : e ∈ es' → e ∈ es ∨ e.expression = .default)
    (hothers : e ∈ others' → e ∈ others ∨ e.expression = .default) (he : e ∈ es' ++ others') :
    e ∈ es ++ others ∨ e.expression = .default := by
  obtain he | he := List.mem_append.1 he
  · exact (hes he).imp (List.mem_append_left _) id
  · exact (hothers he).imp (List.mem_append_right _) id

theorem mem_cons_of_recast {here : Prop} (hv : v' = v ∨ here ∧ v' = v.asDefault)
    (hes : e ∈ es' → e ∈ es ∨ e.expression = .default) (he : e ∈ v' :: es') :
    e ∈ v :: es ∨ e.expression = .default := by
  obtain rfl | he := List.mem_cons.1 he
  · obtain rfl | ⟨-, rfl⟩ := hv
    · exact .inl List.mem_cons_self
    · exact .inr rfl
  · exact (hes he).imp_left (List.mem_cons_of_mem v)

theorem mem_values_of_recasts {computed computed' : List ComputedAttribute}
    (hc : List.Forall₂ r.RecastsAttribute computed computed')
    (he : e ∈ computed'.map ComputedAttribute.value) :
    e ∈ computed.map ComputedAttribute.value ∨ e.expression = .default := by
  induction hc with
  | nil => cases he
  | @cons a a' _ _ ha _ ih =>
    have hv : a'.value = a.value ∨ r = .entry a.name a.value.location ∧ a'.value = a.value.asDefault := by
      obtain rfl | ⟨hr, rfl⟩ := ha
      · exact .inl rfl
      · exact .inr ⟨hr, rfl⟩
    exact mem_cons_of_recast hv ih he

end

mutual

/-- What stands in a program that is recast stands in the program, or is `default`. -/
theorem Recasts.mem_expressions {e : LocatedExpression} : ∀ {op op' : Operation}, r.Recasts op op' →
    e ∈ op'.expressions → e ∈ op.expressions ∨ e.expression = .default
  | _, _, .literal _, he => .inl he
  | _, _, .emit hv hb, he => mem_cons_of_recast hv hb.mem_expressions he
  | _, _, .pushScope, he => .inl he
  | _, _, .popScope, he => .inl he
  | _, _, .define .., he => .inl he
  | _, _, .condition hv hb, he => mem_cons_of_recast hv hb.mem_expressions he
  | _, _, .repeat hv hb, he => mem_cons_of_recast hv hb.mem_expressions he
  | _, _, .element hc hb, he =>
    mem_append_of_recasts (mem_append_of_recasts (mem_values_of_recasts hc) .inl) hb.mem_expressions he
  | _, _, .onError hb, he => mem_append_of_recasts hb.mem_expressions .inl he
  | _, _, .callMacro hf, he => mem_append_of_recasts (mem_append_of_recasts .inl hf.mem_expressions) .inl he
  | _, _, .slot hb, he => hb.mem_expressions he

theorem RecastsAll.mem_expressions {e : LocatedExpression} : ∀ {ops ops' : List Operation}, r.RecastsAll ops ops' →
    e ∈ Operation.expressionsAll ops' → e ∈ Operation.expressionsAll ops ∨ e.expression = .default
  | _, _, .nil, he => .inl he
  | _, _, .cons h hs, he => mem_append_of_recasts h.mem_expressions hs.mem_expressions he

theorem RecastsFills.mem_expressions {e : LocatedExpression} :
    ∀ {fills fills' : List (String × List Operation)}, r.RecastsFills fills fills' →
      e ∈ Operation.expressionsFills fills' → e ∈ Operation.expressionsFills fills ∨ e.expression = .default
  | _, _, .nil, he => .inl he
  | _, _, .cons h hs, he => mem_append_of_recasts h.mem_expressions hs.mem_expressions he

end

end Removal

end MarkupTemplate
