import MarkupTemplate.Proofs.Reordering.Arguments
import MarkupTemplate.Proofs.Reordering.Trees

/-!
# The blocks of trees that are alike

From trees that are alike, and with macros that are alike, the same blocks are built up to the places in them,
or both are refused. Every function of the builder has its lemma here, in the order in which they call each
other.
-/

namespace MarkupTemplate

open Operation (unplacedAll)

variable {s t : DirectiveSet} {start start' : StartTag} {closing closing' : Option EndTag}
  {block block' : Block}

theorem ofOperations_together {x x' : Except TemplateFault (List Operation)}
    (h : Together (Same unplacedAll) x x') :
    Together (Same unplacedAll) (Block.ofOperations <$> x) (Block.ofOperations <$> x') := by
  refine h.map fun ops ops' hops => ?_
  simp only [Same, Operation.unplaced_ofOperations] at hops ⊢
  rw [hops]

/-! ### Directives -/

namespace DirectiveSet

theorem Alike.read {α α' : Type} {R : α → α' → Prop} {absent : α} {absent' : α'}
    {parse : String → Location → Except CompileProblem α}
    {parse' : String → Location → Except CompileProblem α'} (h : s.Alike t) (kind : TalKind)
    (habsent : R absent absent')
    (hparse : ∀ location location' argument, Together R (parse argument location) (parse' argument location')) :
    Together R (s.read kind absent parse) (t.read kind absent' parse') := by
  have hk := h.tal kind
  unfold DirectiveSet.read
  generalize s.tal? kind = d at hk ⊢
  generalize t.tal? kind = e at hk ⊢
  cases hk with
  | none => exact .ok habsent
  | @some d e hd =>
    dsimp only
    rw [hd.argument]
    exact CompileProblem.located_together (hparse _ _ _) _ _

theorem Alike.wrapBy {α γ : Type} {k : α → γ} {kind : TalKind}
    {parse : String → Location → Except CompileProblem α} {wrap : α → Block → Block} (h : s.Alike t)
    (hparse : ∀ location location' argument,
      Together (Same k) (parse argument location) (parse argument location'))
    (hb : Same unplacedAll block block')
    (hwrap : ∀ a a', Same k a a' → Same unplacedAll (wrap a block) (wrap a' block')) :
    Together (Same unplacedAll) (s.wrapBy kind parse wrap block) (t.wrapBy kind parse wrap block') :=
  h.read kind hb fun location location' argument => (hparse location location' argument).map hwrap

theorem Alike.wrap (h : s.Alike t) (hb : Same unplacedAll block block') :
    Together (Same unplacedAll) (s.wrap block) (t.wrap block') := by
  unfold DirectiveSet.wrap
  refine (h.wrapBy Directive.loop_together hb ?_).bind fun b b' hb => ?_
  · rintro ⟨name, items⟩ ⟨name', items'⟩ hsaid
    obtain ⟨rfl, he⟩ := Directive.same_unplacedSaid.1 hsaid
    simp only [Same, Operation.unplacedAll_cons, Operation.unplaced] at hb ⊢
    rw [hb, he]
  refine (h.wrapBy (fun l l' argument => Directive.expression_together l l' argument.toList) hb ?_).bind
    fun b b' hb => ?_
  · intro test test' he
    simp only [Same, Operation.unplacedAll_cons, Operation.unplaced] at he hb ⊢
    rw [hb, he]
  refine (h.wrapBy Directive.definitions_together hb ?_).bind fun b b' hb => ?_
  · intro ds ds' hds
    simp only [Same, Operation.unplaced_inScope] at hds hb ⊢
    rw [hb, hds]
  refine h.wrapBy Directive.handler_together hb ?_
  rintro ⟨asMarkup, value⟩ ⟨asMarkup', value'⟩ hsaid
  obtain ⟨rfl, he⟩ := Directive.same_unplacedSaid.1 hsaid
  simp only [Same, Operation.unplacedAll_cons, Operation.unplaced] at hb ⊢
  rw [hb, he]

/-- There is no directive if there is none of any kind. -/
theorem isEmpty_iff : s.isEmpty ↔ (∀ kind, s.tal? kind = none) ∧ ∀ kind, s.metal? kind = none := by
  have hnil {κ : Type} [DecidableEq κ] (ds : List (Directive κ)) :
      ds.isEmpty ↔ ∀ kind, ds.find? (·.kind == kind) = none := by
    cases ds with
    | nil => simp
    | cons d ds => simpa using ⟨d.kind, fun h => absurd rfl h⟩
  rw [isEmpty, Bool.and_eq_true, hnil, hnil]
  rfl

theorem Alike.isEmpty (h : s.Alike t) : s.isEmpty = t.isEmpty := by
  rw [Bool.eq_iff_iff, isEmpty_iff, isEmpty_iff]
  simp only [← Option.not_isSome_iff_eq_none, fun kind => isSome_of_rel (h.tal kind),
    fun kind => isSome_of_rel (h.metal kind)]

theorem Alike.content? (h : s.Alike t) : Option.Rel Directive.Alike s.content? t.content? := by
  have hc := h.tal .content
  unfold DirectiveSet.content?
  generalize s.tal? .content = d at hc ⊢
  generalize t.tal? .content = e at hc ⊢
  cases hc with
  | none => exact h.tal .replace
  | some hd => exact .some hd

end DirectiveSet

/-! ### Elements -/

namespace StartTag

theorem Alike.isPlain (h : start.Alike start') (hset : s.Alike t) : start.isPlain s = start'.isPlain t := by
  rw [StartTag.isPlain, StartTag.isPlain, hset.isEmpty, h.any_strips, h.isDirective]

theorem Alike.plan (h : start.Alike start') (hclosing : closing.map EndTag.text = closing'.map EndTag.text)
    (hset : s.Alike t) : Together (Same TagPlan.unplaced) (start.plan closing s) (start'.plan closing' t) := by
  unfold StartTag.plan
  rw [h.isDirective, h.rawName, h.carried, h.close, h.selfClosing, isSome_of_rel hset.content?, hclosing]
  refine (hset.read (R := Same _) .attributes rfl Directive.computedAttributes_together).bind
    fun cs cs' hcs => ?_
  dsimp only
  split
  · refine .ok ?_
    simp only [Same, TagPlan.unplaced] at hcs ⊢
    rw [hcs]
  · refine (hset.read (R := Same _) .omitTag rfl Directive.omission_together).bind fun o o' ho => .ok ?_
    simp only [Same, TagPlan.unplaced] at hcs ho ⊢
    rw [hcs, ho]

theorem Alike.core (h : start.Alike start') (hclosing : closing.map EndTag.text = closing'.map EndTag.text)
    (hset : s.Alike t) (hb : Same unplacedAll block block') :
    Together (Same unplacedAll) (start.core closing s block) (start'.core closing' t block') := by
  unfold StartTag.core
  rw [h.isPlain hset]
  split
  · next hplain =>
    have hstrips : start'.attributes.any start'.strips = false := by
      simp only [StartTag.isPlain, Bool.and_eq_true, Bool.not_eq_true'] at hplain
      exact hplain.1.2
    have hliteral : (closing.map fun e => Operation.literal e.text) =
        closing'.map fun e => Operation.literal e.text := by
      simpa only [Option.map_map, Function.comp_def] using congrArg (Option.map Operation.literal) hclosing
    refine .ok ?_
    simp only [Same, Operation.unplaced_ofOperations, List.cons_append, Operation.unplacedAll_cons,
      Operation.unplacedAll_append] at hb ⊢
    rw [hb, hliteral, h.text (h.any_strips.trans hstrips)]
  · refine (h.plan hclosing hset).bind fun tag tag' htag => ?_
    have hwrap {body body' : Block} (hbody : Same unplacedAll body body') :
        Same unplacedAll (tag.wrap body) (tag'.wrap body') := by
      simp only [Same, TagPlan.unplaced_wrap] at htag hbody ⊢
      rw [htag, hbody]
    have hcontent := hset.content?
    generalize s.content? = d at hcontent ⊢
    generalize t.content? = e at hcontent ⊢
    cases hcontent with
    | none => exact .ok (hwrap hb)
    | @some d e hd =>
      dsimp only
      rw [hd.argument, hd.kind]
      refine (CompileProblem.located_together (Directive.content_together _ _ _) _ _).bind ?_
      rintro ⟨asMarkup, value⟩ ⟨asMarkup', value'⟩ hsaid
      obtain ⟨rfl, hvalue⟩ := Directive.same_unplacedSaid.1 hsaid
      have hemit {body body' : Block} (hbody : Same unplacedAll body body') :
          Same unplacedAll [.emit value asMarkup body] [.emit value' asMarkup body'] := by
        simp only [Same, Operation.unplacedAll_cons, Operation.unplaced] at hbody ⊢
        rw [hbody, hvalue]
      dsimp only
      split
      · exact .ok (hemit (hwrap hb))
      · exact .ok (hwrap (hemit hb))

end StartTag

/-! ### Macros -/

/-- The macros have one name in one unit and are defined by elements that are alike. -/
structure MacroDefinition.Alike (d e : MacroDefinition) : Prop where
  name : d.name = e.name
  unit : d.unit = e.unit
  element : d.element.Alike e.element
  offset : d.location.offset = e.location.offset

/-- The units are the same, and the macros alike. -/
structure MacroRegistry.Alike (r r' : MacroRegistry) : Prop where
  units : r.units = r'.units
  definitions : List.Forall₂ MacroDefinition.Alike r.definitions r'.definitions

namespace MacroRegistry

variable {r r' : MacroRegistry}

theorem Alike.definitionAt? (h : r.Alike r') (unit offset : Nat) :
    r.definitionAt? unit offset = r'.definitionAt? unit offset := by
  have hd := h.definitions
  unfold MacroRegistry.definitionAt?
  generalize r.definitions = ds at hd ⊢
  generalize r'.definitions = ds' at hd ⊢
  induction hd with
  | nil => rfl
  | cons hd _ ih => rw [List.findIdx?_cons, List.findIdx?_cons, hd.unit, hd.offset, ih]

theorem Alike.resolve? (h : r.Alike r') (unit : Nat) (e : Expression) (location location' : Location) :
    Together Eq (r.resolve? unit e location) (r'.resolve? unit e location') := by
  unfold MacroRegistry.resolve? resolveIn?
  rw [h.units]
  split
  · split
    · exact .ok rfl
    · split
      · exact .ok rfl
      · split <;> exact .error _ _
  · exact .ok rfl

end MacroRegistry

namespace Fills

variable {fills fills' : Fills}

theorem any_slots (h : Same unplaced fills fills') (name : String) :
    fills.slots.any (·.1 == name) = fills'.slots.any (·.1 == name) := by
  have hnames : fills.slots.map Prod.fst = fills'.slots.map Prod.fst := by
    rw [← Operation.names_unplacedFills, (Fills.mk.inj h).1, Operation.names_unplacedFills]
  have hany (slots : List (String × Block)) :
      slots.any (·.1 == name) = (slots.map Prod.fst).any (· == name) := by
    rw [List.any_map]
    rfl
  rw [hany, hany, hnames]

/-- One more slot is filled. -/
theorem same_concat (h : Same unplaced fills fills') (hb : Same unplacedAll block block') {name : String} :
    Same unplaced ⟨fills.slots ++ [(name, block)], fills.arguments⟩
      ⟨fills'.slots ++ [(name, block')], fills'.arguments⟩ := by
  obtain ⟨hslots, harguments⟩ := Fills.mk.inj h
  simp only [Same, unplaced, Operation.unplacedFills_append, Operation.unplacedFills] at hb ⊢
  rw [hslots, harguments, hb]

theorem addArguments_together (h : Same unplaced fills fills') (hset : s.Alike t) :
    Together (Same unplaced) (fills.addArguments s) (fills'.addArguments t) := by
  have hd := hset.metal .fillParam
  unfold Fills.addArguments
  generalize s.metal? .fillParam = d at hd ⊢
  generalize t.metal? .fillParam = e at hd ⊢
  cases hd with
  | none => exact .ok h
  | @some d e hd =>
    dsimp only
    rw [hd.argument]
    refine (CompileProblem.located_together (Directive.arguments_together _ _ _) _ _).bind
      fun more more' hmore => .ok ?_
    simp only [Same, unplaced, Fills.mk.injEq] at h ⊢
    refine ⟨h.1, ?_⟩
    rw [Argument.unplacedAll_append, Argument.unplacedAll_append, h.2, hmore]

end Fills

/-! ### Nodes -/

/-- The macros and their parameters are alike, and one macro is being built. -/
structure BuildContext.Alike (build build' : BuildContext) : Prop where
  registry : build.registry.Alike build'.registry
  parameters : Same (List.map (List.map Parameter.unplaced)) build.parameters build'.parameters
  unit : build.unit = build'.unit
  root : build.root = build'.root

namespace BuildContext

variable {build build' : BuildContext}

theorem Alike.unknownArgument? (h : build.Alike build') (id : Nat)
    {arguments arguments' : List (String × Argument)} (ha : Same Argument.unplacedAll arguments arguments') :
    build.unknownArgument? id arguments = build'.unknownArgument? id arguments' := by
  have hnames : arguments.map Prod.fst = arguments'.map Prod.fst := by
    rw [← Argument.names_unplacedAll, ha, Argument.names_unplacedAll]
  have hknown : (build.parameters[id]?.getD []).map Parameter.unplaced =
      (build'.parameters[id]?.getD []).map Parameter.unplaced := by
    have := congrArg (fun parameters : List (List Parameter) => parameters[id]?.getD []) h.parameters
    simp only [List.getElem?_map] at this
    rwa [← List.map_nil (f := Parameter.unplaced), Option.getD_map, Option.getD_map] at this
  unfold BuildContext.unknownArgument?
  rw [hnames]
  refine congrArg (fun unknown => (arguments'.map Prod.fst).find? unknown) (funext fun name => ?_)
  rw [Parameter.any_unplaced, hknown, ← Parameter.any_unplaced]

theorem Alike.call (h : build.Alike build') (hset : s.Alike t) {use use' : Directive MetalKind}
    (huse : use.Alike use') {fills fills' : Fills → Except TemplateFault Fills}
    (hfills : ∀ found found' : Fills, Same Fills.unplaced found found' →
      Together (Same Fills.unplaced) (fills found) (fills' found')) :
    Together (Same unplacedAll) (build.call s use fills) (build'.call t use' fills') := by
  unfold BuildContext.call
  rw [huse.argument, h.unit]
  refine (CompileProblem.located_together (Directive.expression_together _ _ _) _ _).bind fun e e' he => ?_
  have hexpression : e.expression = e'.expression :=
    show e.unplaced.expression = e'.unplaced.expression from congrArg _ he
  rw [hexpression]
  refine (h.registry.resolve? _ _ _ _).bind fun id? id?' hid => ?_
  subst hid
  refine (Fills.addArguments_together rfl hset).bind fun found found' hfound =>
    (hfills found found' hfound).bind fun found found' hfound => ?_
  obtain ⟨hslots, harguments⟩ := Fills.mk.inj hfound
  cases id? with
  | none =>
    refine .ok ?_
    simp only [Same, Operation.unplacedAll_cons, Operation.unplaced, MacroTarget.unplaced] at he ⊢
    rw [hslots, harguments, he]
  | some id =>
    dsimp only
    rw [h.unknownArgument? id harguments]
    split
    · exact .error _ _
    · refine .ok ?_
      simp only [Same, Operation.unplacedAll_cons, Operation.unplaced, MacroTarget.unplaced]
      rw [hslots, harguments]

theorem Alike.callInPlace (h : build.Alike build') {location location' : Location}
    (hoffset : location.offset = location'.offset) :
    Together (Same unplacedAll) (build.callInPlace location) (build'.callInPlace location') := by
  unfold BuildContext.callInPlace
  rw [h.registry.definitionAt?, h.unit, hoffset]
  split
  · refine .ok ?_
    simp only [Same, Operation.unplacedAll_cons, Operation.unplaced]
  · exact .error _ _

theorem slot_together {d e : Directive MetalKind} (hd : d.Alike e) (hb : Same unplacedAll block block') :
    Together (Same unplacedAll) (slot d block) (slot e block') := by
  unfold slot
  rw [hd.argument]
  dsimp only
  split
  · exact .error _ _
  · refine .ok ?_
    simp only [Same, Operation.unplacedAll_cons, Operation.unplaced] at hb ⊢
    rw [hb]

theorem Alike.element (h : build.Alike build') (hstart : start.Alike start')
    (hclosing : closing.map EndTag.text = closing'.map EndTag.text)
    {children children' : Unit → Except TemplateFault Block} {fills fills' : Fills → Except TemplateFault Fills}
    (hchildren : Together (Same unplacedAll) (children ()) (children' ()))
    (hfills : ∀ found found' : Fills, Same Fills.unplaced found found' →
      Together (Same Fills.unplaced) (fills found) (fills' found')) :
    Together (Same unplacedAll) (build.element start closing children fills)
      (build'.element start' closing' children' fills') := by
  unfold BuildContext.element
  refine hstart.ofTag.bind fun s t hset => ?_
  rw [isSome_of_rel (hset.metal .defineMacro), h.root, hstart.offset]
  split
  · exact h.callInPlace hstart.offset
  have hmisplaced := rel_filter (hset.metal .defineParam) build'.root.isNone
  dsimp only
  generalize ((s.metal? .defineParam).filter fun _ => build'.root.isNone) = d at hmisplaced ⊢
  generalize ((t.metal? .defineParam).filter fun _ => build'.root.isNone) = e at hmisplaced ⊢
  cases hmisplaced with
  | some => exact .error _ _
  | none =>
    have huse := hset.metal .useMacro
    have hslot := hset.metal .defineSlot
    dsimp only
    generalize s.metal? .useMacro = d at huse ⊢
    generalize t.metal? .useMacro = e at huse ⊢
    generalize s.metal? .defineSlot = d' at hslot ⊢
    generalize t.metal? .defineSlot = e' at hslot ⊢
    cases huse with
    | none =>
      refine hchildren.bind fun _ _ hb => (hstart.core hclosing hset hb).bind
        fun _ _ hb => (hset.wrap hb).bind fun _ _ hb => ?_
      cases hslot with
      | none => exact .ok hb
      | some hd => exact slot_together hd hb
    | some huse =>
      refine (h.call hset huse hfills).bind fun _ _ hb => (hset.wrap hb).bind fun _ _ hb => ?_
      cases hslot with
      | none => exact .ok hb
      | some hd => exact slot_together hd hb

/-- An element, from what its children give. -/
theorem Alike.elementOf (h : build.Alike build') (hstart : start.Alike start')
    (hclosing : closing.map EndTag.text = closing'.map EndTag.text) {children children' : List Node}
    (hops : Together (Same unplacedAll) (build.operations children) (build'.operations children'))
    (hfills : ∀ found found' : Fills, Same Fills.unplaced found found' →
      Together (Same Fills.unplaced) (build.fillsOf found children) (build'.fillsOf found' children')) :
    Together (Same unplacedAll)
      (build.element start closing (fun _ => Block.ofOperations <$> build.operations children)
        fun found => build.fillsOf found children)
      (build'.element start' closing' (fun _ => Block.ofOperations <$> build'.operations children')
        fun found => build'.fillsOf found children') :=
  h.element hstart hclosing (ofOperations_together hops) hfills

mutual

theorem Alike.node (h : build.Alike build') : ∀ {n n' : Node}, n.Alike n' →
    Together (Same unplacedAll) (build.node n) (build'.node n')
  | _, _, .markup .. => .ok rfl
  | _, _, .element hstart hchildren hclosing => by
    rw [BuildContext.node, BuildContext.node]
    exact h.elementOf hstart hclosing (h.operations hchildren) fun _ _ hfound => h.fillsOf hchildren hfound

theorem Alike.operations (h : build.Alike build') : ∀ {ns ns' : List Node}, Node.AllAlike ns ns' →
    Together (Same unplacedAll) (build.operations ns) (build'.operations ns')
  | _, _, .nil => .ok rfl
  | _, _, .cons hn hns => by
    rw [BuildContext.operations, BuildContext.operations]
    refine (h.node hn).bind fun first first' hfirst => (h.operations hns).bind
      fun others others' hothers => .ok ?_
    rw [Same, Operation.unplacedAll_append, Operation.unplacedAll_append, hfirst, hothers]

theorem Alike.fillsOfNode (h : build.Alike build') : ∀ {n n' : Node}, n.Alike n' →
    ∀ {found found' : Fills}, Same Fills.unplaced found found' →
      Together (Same Fills.unplaced) (build.fillsOfNode found n) (build'.fillsOfNode found' n')
  | _, _, .markup .., _, _, hfound => .ok hfound
  | _, _, .element hstart hchildren hclosing, found, found', hfound => by
    rw [BuildContext.fillsOfNode, BuildContext.fillsOfNode]
    refine hstart.ofTag.bind fun s t hset => (Fills.addArguments_together hfound hset).bind
      fun found found' hfound => ?_
    have hslot := hset.metal .fillSlot
    generalize s.metal? .fillSlot = d at hslot ⊢
    generalize t.metal? .fillSlot = e at hslot ⊢
    cases hslot with
    | none =>
      dsimp only
      rw [isSome_of_rel (hset.metal .useMacro)]
      split
      · exact .ok hfound
      · exact h.fillsOf hchildren hfound
    | @some d e hd =>
      dsimp only
      rw [hd.argument, Fills.any_slots hfound]
      split
      · exact .ok hfound
      · refine (h.elementOf hstart hclosing (h.operations hchildren) fun _ _ hfound =>
          h.fillsOf hchildren hfound).bind fun body body' hbody => .ok (Fills.same_concat hfound hbody)

theorem Alike.fillsOf (h : build.Alike build') : ∀ {ns ns' : List Node}, Node.AllAlike ns ns' →
    ∀ {found found' : Fills}, Same Fills.unplaced found found' →
      Together (Same Fills.unplaced) (build.fillsOf found ns) (build'.fillsOf found' ns')
  | _, _, .nil, _, _, hfound => .ok hfound
  | _, _, .cons hn hns, found, found', hfound => by
    rw [BuildContext.fillsOf, BuildContext.fillsOf]
    exact (h.fillsOfNode hn hfound).bind fun first first' hfirst => h.fillsOf hns hfirst

end

/-- The block of a template. -/
theorem Alike.nodes (h : build.Alike build') {ns ns' : List Node} (hns : Node.AllAlike ns ns') :
    Together (Same unplacedAll) (build.nodes ns) (build'.nodes ns') :=
  ofOperations_together (h.operations hns)

end BuildContext

end MarkupTemplate
