import MarkupTemplate.Proofs.Defaults.Elements

/-!
# The blocks of trees without a directive

A directive is taken out of some of the tags of a tree, and of the elements that define macros. Where the builder
gives a block for the tree, it gives a lighter one for what is left. Every function of the builder has its lemma here,
in the order in which they call each other.
-/

namespace MarkupTemplate

variable {r : Removal} {start start' : StartTag} {closing closing' : Option EndTag} {set other : DirectiveSet}
  {block block' : Block}

/-! ### Trees -/

/-- The tags are left as they are, or the directive is taken out of them. -/
def Removal.Cuts (r : Removal) (start : StartTag) (closing : Option EndTag) (start' : StartTag)
    (closing' : Option EndTag) : Prop :=
  start' = start ∧ closing' = closing ∨ start' = start.without r ∧ closing' = start.endWithout r closing

namespace Node

mutual

/-- The directive is taken out of some of the tags. -/
inductive Cut (r : Removal) : Node → Node → Prop
  | markup (kind : MarkupKind) (text : String) (location : Location) :
    Cut r (.markup kind text location) (.markup kind text location)
  | element {start start' : StartTag} {children children' : List Node} {closing closing' : Option EndTag}
    (htags : r.Cuts start closing start' closing') (hchildren : AllCut r children children') :
    Cut r (.element start children closing) (.element start' children' closing')

/-- The directive is taken out of some of the tags of the nodes. -/
inductive AllCut (r : Removal) : List Node → List Node → Prop
  | nil : AllCut r [] []
  | cons {n n' : Node} {ns ns' : List Node} (hn : Cut r n n') (hns : AllCut r ns ns') :
    AllCut r (n :: ns) (n' :: ns')

end

mutual

theorem Cut.refl : ∀ n : Node, n.Cut r n
  | .markup kind text location => .markup kind text location
  | .element _ children _ => .element (.inl ⟨rfl, rfl⟩) (AllCut.refl children)

theorem AllCut.refl : ∀ ns : List Node, AllCut r ns ns
  | [] => .nil
  | n :: ns => .cons (Cut.refl n) (AllCut.refl ns)

end

mutual

theorem cut_without (r : Removal) : ∀ n : Node, n.Cut r (n.without r)
  | .markup kind text location => .markup kind text location
  | .element _ children _ => .element (.inr ⟨rfl, rfl⟩) (allCut_withoutAll r children)

theorem allCut_withoutAll (r : Removal) : ∀ ns : List Node, AllCut r ns (withoutAll r ns)
  | [] => .nil
  | n :: ns => .cons (cut_without r n) (allCut_withoutAll r ns)

end

end Node

/-! ### Elements -/

namespace Removal.Cuts

theorem location (h : r.Cuts start closing start' closing') : start'.location = start.location := by
  obtain ⟨rfl, -⟩ | ⟨rfl, -⟩ := h
  · rfl
  · exact start.location_without r

/-- What is known of the directives of a tag and of those that are left of them. -/
structure Sets (r : Removal) (start : StartTag) (closing : Option EndTag) (set : DirectiveSet) (start' : StartTag)
    (closing' : Option EndTag) (other : DirectiveSet) : Prop where
  metal : other.metal = set.metal
  core : ∀ children children', r.Lightens children children' →
    Follows r.Lightens (start.core closing set children) (start'.core closing' other children')
  wrap : ∀ block block', r.Lightens block block' → Follows r.Lightens (set.wrap block) (other.wrap block')

theorem Sets.metal? (h : Sets r start closing set start' closing' other) : other.metal? = set.metal? := by
  funext kind
  rw [DirectiveSet.metal?, DirectiveSet.metal?, h.metal]

theorem sets (h : r.Cuts start closing start' closing') :
    Follows (fun set other => Sets r start closing set start' closing' other) (DirectiveSet.ofTag start)
      (DirectiveSet.ofTag start') := by
  have hsame : Follows (fun set other => Sets r start closing set start closing other) (DirectiveSet.ofTag start)
      (DirectiveSet.ofTag start) := fun set hset =>
    ⟨set, hset, rfl, fun _ _ hb => StartTag.core_lightens hb,
      fun _ _ hb => DirectiveSet.wrap_lightens (fun _ _ => .inl rfl) hb⟩
  obtain ⟨rfl, rfl⟩ | ⟨rfl, rfl⟩ := h
  · exact hsame
  by_cases hc : r.concerns start
  · intro set hset
    obtain ⟨other, hother, hleaves⟩ := StartTag.ofTag_without hset r
    exact ⟨other, hother, hleaves.metal, fun _ _ hb => StartTag.core_without hset hleaves hc hb,
      fun _ _ hb => DirectiveSet.wrap_lightens (fun _ hk => hleaves.omits hk) hb⟩
  · obtain ⟨hstart, hclosing⟩ := StartTag.without_of_not_concerns hc closing
    rw [hstart, hclosing]
    exact hsame

end Removal.Cuts

/-- The directive is taken out of some of the tags of the element. -/
structure Element.Cut (r : Removal) (e e' : Element) : Prop where
  tags : r.Cuts e.start e.closing e'.start e'.closing
  children : Node.AllCut r e.children e'.children

/-! ### Macros -/

/-- The macros have one name and one place, and the directive is taken out of the tags of what defines them. -/
structure MacroDefinition.Cut (r : Removal) (d d' : MacroDefinition) : Prop where
  name : d'.name = d.name
  unit : d'.unit = d.unit
  element : d.element.Cut r d'.element
  location : d'.location = d.location

/-- The units are the same, and so are the macros but for the directive. -/
structure MacroRegistry.Cut (r : Removal) (m m' : MacroRegistry) : Prop where
  units : m'.units = m.units
  definitions : List.Forall₂ (MacroDefinition.Cut r) m.definitions m'.definitions

namespace MacroRegistry.Cut

variable {m m' : MacroRegistry}

theorem definitionAt? (h : m.Cut r m') (unit offset : Nat) :
    m'.definitionAt? unit offset = m.definitionAt? unit offset := by
  have hd := h.definitions
  unfold MacroRegistry.definitionAt?
  generalize m.definitions = ds at hd ⊢
  generalize m'.definitions = ds' at hd ⊢
  induction hd with
  | nil => rfl
  | cons hd _ ih => rw [List.findIdx?_cons, List.findIdx?_cons, hd.unit, hd.location, ih]

theorem resolve? (h : m.Cut r m') (unit : Nat) (e : Expression) (location : Location) :
    m'.resolve? unit e location = m.resolve? unit e location := by
  unfold MacroRegistry.resolve?
  rw [h.units]

end MacroRegistry.Cut

/-! ### Fills -/

namespace Fills

/-- What is filled is lighter, and the arguments are the same. -/
structure Lightens (r : Removal) (fills fills' : Fills) : Prop where
  slots : r.LightensFills fills.slots fills'.slots
  arguments : fills'.arguments = fills.arguments

variable {fills fills' : Fills}

theorem Lightens.any_slots (h : fills.Lightens r fills') (name : String) :
    fills'.slots.any (·.1 == name) = fills.slots.any (·.1 == name) := by
  obtain ⟨recast, hr, hs⟩ := h.slots
  have hnames : fills'.slots.map Prod.fst = fills.slots.map Prod.fst :=
    (names_of_named (Block.fillsSimplify_iff.1 hs)).trans (names_of_named (Removal.recastsFills_iff.1 hr))
  have hany (slots : List (String × Block)) :
      slots.any (·.1 == name) = (slots.map Prod.fst).any (· == name) := by
    rw [List.any_map]
    rfl
  rw [hany, hany, hnames]

/-- One more slot is filled. -/
theorem Lightens.concat (h : fills.Lightens r fills') (name : String) (hb : r.Lightens block block') :
    Lightens r ⟨fills.slots ++ [(name, block)], fills.arguments⟩
      ⟨fills'.slots ++ [(name, block')], fills'.arguments⟩ := by
  obtain ⟨slots, hr, hs⟩ := h.slots
  obtain ⟨recast, hrb, hsb⟩ := hb
  refine ⟨⟨slots ++ [(name, recast)], ?_, ?_⟩, h.arguments⟩
  · exact Removal.recastsFills_iff.2
      (List.rel_append (Removal.recastsFills_iff.1 hr) (.cons ⟨rfl, hrb⟩ .nil))
  · exact Block.fillsSimplify_iff.2
      (List.rel_append (Block.fillsSimplify_iff.1 hs) (.cons ⟨rfl, hsb⟩ .nil))

theorem none_lightens : none.Lightens r none := ⟨⟨[], .nil, .nil⟩, rfl⟩

theorem Lightens.addArguments (h : fills.Lightens r fills') (hmetal : other.metal? = set.metal?) :
    Follows (Lightens r) (fills.addArguments set) (fills'.addArguments other) := by
  unfold Fills.addArguments
  rw [hmetal]
  cases set.metal? .fillParam with
  | none => exact .ok h
  | some d =>
    refine (Follows.refl (R := Eq) (fun _ => rfl) _).bind ?_
    rintro more _ rfl
    exact .ok ⟨h.slots, by rw [h.arguments]⟩

end Fills

/-! ### Nodes -/

/-- The macros are the same but for the directive, and one macro is being built. -/
structure BuildContext.Cut (r : Removal) (build build' : BuildContext) : Prop where
  registry : build.registry.Cut r build'.registry
  parameters : build'.parameters = build.parameters
  unit : build'.unit = build.unit
  root : build'.root = build.root

namespace BuildContext

variable {build build' : BuildContext}

theorem Cut.call (h : build.Cut r build') (hmetal : other.metal? = set.metal?)
    (use : Directive MetalKind) {fills fills' : Fills → Except TemplateFault Fills}
    (hfills : ∀ found found', found.Lightens r found' → Follows (Fills.Lightens r) (fills found) (fills' found')) :
    Follows r.Lightens (build.call set use fills) (build'.call other use fills') := by
  unfold BuildContext.call
  refine (Follows.refl (R := Eq) (fun _ => rfl) _).bind ?_
  rintro e _ rfl
  rw [h.unit, h.registry.resolve?]
  refine (Follows.refl (R := Eq) (fun _ => rfl) _).bind ?_
  rintro id? _ rfl
  refine (Fills.none_lightens.addArguments hmetal).bind fun found found' hfound =>
    (hfills found found' hfound).bind fun found found' hfound => ?_
  rw [hfound.arguments]
  cases id? with
  | none => exact .ok (.callMacro _ hfound.slots _ _)
  | some id =>
    have hunknown : build'.unknownArgument? id found.arguments = build.unknownArgument? id found.arguments := by
      unfold BuildContext.unknownArgument?
      rw [h.parameters]
    dsimp only
    rw [hunknown]
    split
    · exact .error _
    · exact .ok (.callMacro _ hfound.slots _ _)

theorem Cut.callInPlace (h : build.Cut r build') (location : Location) :
    Follows r.Lightens (build.callInPlace location) (build'.callInPlace location) := by
  unfold BuildContext.callInPlace
  rw [h.registry.definitionAt?, h.unit]
  split
  · exact .ok (.callMacro _ ⟨[], .nil, .nil⟩ _ _)
  · exact .error _

theorem slot_lightens (d : Directive MetalKind) (hb : r.Lightens block block') :
    Follows r.Lightens (slot d block) (slot d block') := by
  unfold slot
  dsimp only
  split
  · exact .error _
  · exact .ok (hb.slot _)

theorem Cut.element (h : build.Cut r build') (htags : r.Cuts start closing start' closing')
    {children children' : Unit → Except TemplateFault Block} {fills fills' : Fills → Except TemplateFault Fills}
    (hchildren : Follows r.Lightens (children ()) (children' ()))
    (hfills : ∀ found found', found.Lightens r found' → Follows (Fills.Lightens r) (fills found) (fills' found')) :
    Follows r.Lightens (build.element start closing children fills)
      (build'.element start' closing' children' fills') := by
  unfold BuildContext.element
  refine htags.sets.bind fun set other hset => ?_
  rw [hset.metal?, h.root, htags.location]
  split
  · exact h.callInPlace start.location
  dsimp only
  split
  · exact .error _
  cases set.metal? .useMacro with
  | none =>
    refine hchildren.bind fun _ _ hb => (hset.core _ _ hb).bind fun _ _ hb => (hset.wrap _ _ hb).bind
      fun _ _ hb => ?_
    split
    · exact slot_lightens _ hb
    · exact .ok hb
  | some use =>
    refine (h.call hset.metal? use hfills).bind fun _ _ hb => (hset.wrap _ _ hb).bind fun _ _ hb => ?_
    split
    · exact slot_lightens _ hb
    · exact .ok hb

mutual

theorem Cut.node (h : build.Cut r build') : ∀ {n n' : Node}, n.Cut r n' →
    Follows r.Lightens (build.node n) (build'.node n')
  | _, _, .markup _ text _ => .ok (.literal text)
  | _, _, .element htags hchildren => by
    rw [BuildContext.node, BuildContext.node]
    exact h.element htags ((h.operations hchildren).map fun _ _ hops => hops.ofOperations)
      fun _ _ hfound => h.fillsOf hchildren hfound

theorem Cut.operations (h : build.Cut r build') : ∀ {ns ns' : List Node}, Node.AllCut r ns ns' →
    Follows r.Lightens (build.operations ns) (build'.operations ns')
  | _, _, .nil => .ok .nil
  | _, _, .cons hn hns => by
    rw [BuildContext.operations, BuildContext.operations]
    exact (h.node hn).bind fun _ _ hfirst => (h.operations hns).bind fun _ _ hothers => .ok (hfirst.append hothers)

theorem Cut.fillsOfNode (h : build.Cut r build') : ∀ {n n' : Node}, n.Cut r n' → ∀ {found found' : Fills},
    found.Lightens r found' → Follows (Fills.Lightens r) (build.fillsOfNode found n) (build'.fillsOfNode found' n')
  | _, _, .markup .., _, _, hfound => .ok hfound
  | _, _, .element htags hchildren, _, _, hfound => by
    rw [BuildContext.fillsOfNode, BuildContext.fillsOfNode]
    refine htags.sets.bind fun set other hset => (hfound.addArguments hset.metal?).bind
      fun found found' hfound => ?_
    rw [hset.metal?]
    split
    · dsimp only
      rw [hfound.any_slots]
      split
      · exact .ok hfound
      · refine (h.element htags ((h.operations hchildren).map fun _ _ hops => hops.ofOperations)
          fun _ _ hfound => h.fillsOf hchildren hfound).bind fun body body' hbody => .ok (hfound.concat _ hbody)
    · split
      · exact .ok hfound
      · exact h.fillsOf hchildren hfound

theorem Cut.fillsOf (h : build.Cut r build') : ∀ {ns ns' : List Node}, Node.AllCut r ns ns' →
    ∀ {found found' : Fills}, found.Lightens r found' →
      Follows (Fills.Lightens r) (build.fillsOf found ns) (build'.fillsOf found' ns')
  | _, _, .nil, _, _, hfound => .ok hfound
  | _, _, .cons hn hns, _, _, hfound => by
    rw [BuildContext.fillsOf, BuildContext.fillsOf]
    exact (h.fillsOfNode hn hfound).bind fun _ _ hfirst => h.fillsOf hns hfirst

end

/-- An element, from what its children give. -/
theorem Cut.elementOf (h : build.Cut r build') {e e' : Element} (he : e.Cut r e') :
    Follows r.Lightens
      (build.element e.start e.closing (fun _ => build.nodes e.children)
        fun found => build.fillsOf found e.children)
      (build'.element e'.start e'.closing (fun _ => build'.nodes e'.children)
        fun found => build'.fillsOf found e'.children) :=
  h.element he.tags ((h.operations he.children).map fun _ _ hops => hops.ofOperations)
    fun _ _ hfound => h.fillsOf he.children hfound

/-- The block of a template. -/
theorem Cut.nodes (h : build.Cut r build') {ns ns' : List Node} (hns : Node.AllCut r ns ns') :
    Follows r.Lightens (build.nodes ns) (build'.nodes ns') :=
  (h.operations hns).map fun _ _ hops => hops.ofOperations

end BuildContext

end MarkupTemplate
