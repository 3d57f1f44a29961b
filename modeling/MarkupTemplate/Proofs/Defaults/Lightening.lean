import MarkupTemplate.Compile.Builder
import MarkupTemplate.Proofs.Defaults.Recasts
import MarkupTemplate.Proofs.Defaults.Simplifications

/-!
# Lighter blocks

A block is lighter without a directive if it comes from the block with the directive in two steps: some of the
directive's expressions are replaced by `default`, and what does nothing then falls away. What is put together from
blocks that are lighter is lighter.
-/

namespace MarkupTemplate

namespace Removal

/-- The second block is the first one with `default` for some of what is taken out, simplified. -/
def Lightens (r : Removal) (block block' : Block) : Prop :=
  ∃ recast, r.RecastsAll block recast ∧ Block.Simplifies recast block'

/-- The fills are, slot by slot. -/
def LightensFills (r : Removal) (fills fills' : List (String × Block)) : Prop :=
  ∃ recast, r.RecastsFills fills recast ∧ Block.FillsSimplify recast fills'

namespace Lightens

variable {r : Removal} {xs xs' ys ys' : Block} {e : LocatedExpression} {tag : TagPlan}

theorem nil : r.Lightens [] [] := ⟨[], .nil, .nil⟩

theorem append (hx : r.Lightens xs xs') (hy : r.Lightens ys ys') : r.Lightens (xs ++ ys) (xs' ++ ys') := by
  obtain ⟨zs, hz, hx⟩ := hx
  obtain ⟨ws, hw, hy⟩ := hy
  exact ⟨zs ++ ws, hz.append hw, hx.append hy⟩

theorem ofOperations (h : r.Lightens xs xs') : r.Lightens (Block.ofOperations xs) (Block.ofOperations xs') := by
  obtain ⟨zs, hz, h⟩ := h
  exact ⟨_, hz.ofOperations, h.ofOperations⟩

theorem literal (text : String) : r.Lightens [.literal text] [.literal text] :=
  ⟨_, .single (.literal text), .literal text⟩

theorem texts : ∀ pieces : List String, r.Lightens (pieces.map .literal) (pieces.map .literal)
  | [] => nil
  | piece :: pieces => append (literal piece) (texts pieces)

theorem definitions : ∀ ds : List Directive.Definition,
    r.Lightens (ds.map fun d => .define d.kind d.name d.value) (ds.map fun d => .define d.kind d.name d.value)
  | [] => nil
  | d :: ds => append ⟨_, .single (.define d.kind d.name d.value), .define d.kind d.name d.value⟩ (definitions ds)

theorem inScope (ds : List Directive.Definition) (h : r.Lightens xs xs') :
    r.Lightens (DirectiveSet.inScope ds xs) (DirectiveSet.inScope ds xs') := by
  have hpush : r.Lightens [.pushScope] [.pushScope] := ⟨_, .single .pushScope, .pushScope⟩
  have hpop : r.Lightens [.popScope] [.popScope] := ⟨_, .single .popScope, .popScope⟩
  exact ((hpush.append (definitions ds)).append h).append hpop

theorem emit (e : LocatedExpression) (asMarkup : Bool) (h : r.Lightens xs xs') :
    r.Lightens [.emit e asMarkup xs] [.emit e asMarkup xs'] := by
  obtain ⟨zs, hz, h⟩ := h
  exact ⟨_, .single (.emit (.inl rfl) hz), .emit e asMarkup h⟩

theorem condition (test : LocatedExpression) (h : r.Lightens xs xs') :
    r.Lightens [.condition test xs] [.condition test xs'] := by
  obtain ⟨zs, hz, h⟩ := h
  exact ⟨_, .single (.condition (.inl rfl) hz), .condition test h⟩

theorem loop (name : String) (items : LocatedExpression) (h : r.Lightens xs xs') :
    r.Lightens [.repeat name items xs] [.repeat name items xs'] := by
  obtain ⟨zs, hz, h⟩ := h
  exact ⟨_, .single (.repeat (.inl rfl) hz), .repeat name items h⟩

theorem onError (handler : LocatedExpression) (asMarkup : Bool) (h : r.Lightens xs xs') :
    r.Lightens [.onError xs handler asMarkup] [.onError xs' handler asMarkup] := by
  obtain ⟨zs, hz, h⟩ := h
  exact ⟨_, .single (.onError hz), .onError h handler asMarkup⟩

theorem callMacro (target : MacroTarget) {fills fills' : List (String × Block)} (h : r.LightensFills fills fills')
    (arguments : List (String × Argument)) (location : Location) :
    r.Lightens [.callMacro target fills arguments location] [.callMacro target fills' arguments location] := by
  obtain ⟨recast, hr, h⟩ := h
  exact ⟨_, .single (.callMacro hr), .callMacro target h arguments location⟩

theorem slot (name : String) (h : r.Lightens xs xs') : r.Lightens [.slot name xs] [.slot name xs'] := by
  obtain ⟨zs, hz, h⟩ := h
  exact ⟨_, .single (.slot hz), .slot name h⟩

theorem wrap (h : r.Lightens xs xs') : r.Lightens (tag.wrap xs) (tag.wrap xs') := by
  obtain ⟨zs, hz, h⟩ := h
  exact ⟨_, hz.wrap (forall₂_recastsAttribute tag.computed), h.wrap (.inl rfl)⟩

/-! What is taken out falls away. -/

theorem emitted (hr : r = .content e.location ∨ r = .replace e.location) (asMarkup : Bool) (h : r.Lightens xs xs') :
    r.Lightens [.emit e asMarkup xs] xs' := by
  obtain ⟨zs, hz, h⟩ := h
  exact ⟨_, .single (.emit (.inr ⟨hr, rfl⟩) hz), .emitted rfl asMarkup h⟩

theorem holds (hr : r = .condition e.location) (h : r.Lightens xs xs') : r.Lightens [.condition e xs] xs' := by
  obtain ⟨zs, hz, h⟩ := h
  exact ⟨_, .single (.condition (.inr ⟨hr, rfl⟩) hz), .holds rfl h⟩

theorem once (name : String) (hr : r = .loop e.location) (h : r.Lightens xs xs') :
    r.Lightens [.repeat name e xs] xs' := by
  obtain ⟨zs, hz, h⟩ := h
  exact ⟨_, .single (.repeat (.inr ⟨hr, rfl⟩) hz), .once name rfl h⟩

/-- An attribute is computed as `default` if its entries are taken out. -/
def recastEntry (name : String) (a : ComputedAttribute) : ComputedAttribute :=
  if a.name = name then ⟨a.name, a.value.asDefault⟩ else a

theorem filter_recastEntry (name : String) (computed : List ComputedAttribute) :
    (computed.map (recastEntry name)).filter (·.name != name) = computed.filter (·.name != name) := by
  induction computed with
  | nil => rfl
  | cons a computed ih =>
    rw [List.map_cons, List.filter_cons, List.filter_cons, ih, recastEntry]
    by_cases h : a.name = name <;> simp [h]

theorem wrap_entry {name : String} {place : Location} (hr : r = .entry name place)
    (hplace : ∀ a ∈ tag.computed, a.value.location = place) (h : r.Lightens xs xs') : r.Lightens (tag.wrap xs)
      (TagPlan.wrap { tag with computed := tag.computed.filter (·.name != name) } xs') := by
  obtain ⟨zs, hz, h⟩ := h
  have hrecast : List.Forall₂ r.RecastsAttribute tag.computed (tag.computed.map (recastEntry name)) := by
    rw [List.forall₂_map_right_iff, List.forall₂_same]
    intro a ha
    unfold recastEntry
    split
    · next hname =>
      subst hname
      exact .inr ⟨by rw [hr, hplace a ha], rfl⟩
    · exact .inl rfl
  refine ⟨_, hz.wrap hrecast, h.wrap (.inr ⟨name, fun a ha hname => ?_, ?_⟩)⟩
  · obtain ⟨b, -, rfl⟩ := List.mem_map.1 ha
    unfold recastEntry at hname ⊢
    split
    · rfl
    · next hne =>
      rw [if_neg hne] at hname
      exact absurd hname hne
  · dsimp only
    rw [filter_recastEntry]

end Lightens

end Removal

end MarkupTemplate
