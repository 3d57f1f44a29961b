import MarkupTemplate.Proofs.Render.Trees

/-!
# What a compilation keeps

Blocks are put together in few ways: texts and calls begin them, operations are put behind each other and
joined, an operation or a scope is laid around one. `BuildContext.Keeps` says of a property of operations
`P` and one of blocks `B` that they are kept by each of these, and of a property of faults `E` that the
compiler's own faults have it, if the elements met have the property `H`. Everything that is built then has
them, and everything that fails: every function of the builder has its lemma here, in the order in which
they call each other.
-/

namespace MarkupTemplate

section Faults

variable {E : TemplateFault → Prop}

theorem CompileProblem.located_gives (hE : ∀ problem location, E (.compile problem location)) {α : Type}
    (location : Location) (x : Except CompileProblem α) :
    Gives (fun a => x = .ok a) E (located location x) := by
  cases x with
  | ok a => exact .ok rfl
  | error problem => exact .error (hE problem _)

theorem DirectiveSet.ofTag_gives (hE : ∀ problem location, E (.compile problem location))
    (start : StartTag) : Gives (fun _ => True) E (ofTag start) := by
  have hadd : ∀ a ∈ start.attributes, ∀ set, True → Gives (fun _ => True) E (addAttribute start set a) := by
    intro a _ set _
    unfold addAttribute
    split
    · exact (CompileProblem.located_gives hE _ _).imp fun _ _ _ => trivial
    · exact .ok trivial
  unfold ofTag
  refine (Gives.foldlM hadd trivial).bind fun set _ _ => ?_
  split
  · exact .error (hE ..)
  · exact .ok trivial

end Faults

/-- The block that an operation runs itself, if it has one. -/
def Operation.body? : Operation → Option Block
  | .emit _ _ fallback => some fallback
  | .condition _ body => some body
  | .repeat _ _ body => some body
  | .element _ body => some body
  | .onError body _ _ => some body
  | .slot _ fallback => some fallback
  | _ => none

namespace Node

mutual

/-- The elements of a node. -/
def elements : Node → List Element
  | .markup .. => []
  | .element start children closing => ⟨start, children, closing⟩ :: elementsOf children

/-- The elements of nodes in document order. -/
def elementsOf : List Node → List Element
  | [] => []
  | n :: ns => n.elements ++ elementsOf ns

end

mutual

theorem starts_eq_map : ∀ n : Node, n.starts = n.elements.map Element.start
  | .markup .. => rfl
  | .element start children _ => congrArg (start :: ·) (startsOf_eq_map children)

theorem startsOf_eq_map : ∀ ns : List Node, startsOf ns = (elementsOf ns).map Element.start
  | [] => rfl
  | n :: ns => by rw [startsOf, elementsOf, starts_eq_map n, startsOf_eq_map ns, List.map_append]

end

/-- What holds of the tags of nodes holds of those of their elements. -/
theorem forall_elementsOf {H : StartTag → Prop} {ns : List Node} (h : ∀ start ∈ startsOf ns, H start) :
    ∀ e ∈ elementsOf ns, H e.start :=
  fun _ he => h _ (startsOf_eq_map ns ▸ List.mem_map_of_mem he)

end Node

/-- If the operation writes tags, they are planned for an element that has a property. -/
def Operation.IsPlanned (H : Element → Prop) (op : Operation) : Prop :=
  ∀ tag body, op = .element tag body → ∃ element set, H element ∧ element.start.plan element.closing set = .ok tag

/-- All blocks that are filled in have a property. -/
def Fills.All (B : Block → Prop) (fills : Fills) : Prop :=
  ∀ fill ∈ fills.slots, B fill.2

namespace BuildContext

/-- A target that is known has been found under the name that a path spells, and has a parameter for each
argument. -/
def IsTarget (build : BuildContext) (target : MacroTarget) (arguments : List (String × Argument))
    (location : Location) : Prop :=
  ∀ id, target = .known id →
    (∃ e, build.registry.resolve? build.unit e location = .ok (some id)) ∧
      build.unknownArgument? id arguments = none

/-- An element uses a macro with these fills, by a directive at this place. -/
inductive Uses (build : BuildContext) (element : Element) : Fills → Location → Prop
  | intro {set : DirectiveSet} {use : Directive MetalKind} {given fills : Fills}
      (hset : DirectiveSet.ofTag element.start = .ok set) (hu : set.metal? .useMacro = some use)
      (hg : Fills.none.addArguments set = .ok given) (hf : build.fillsOf given element.children = .ok fills) :
      Uses build element fills use.location

/-- What the steps of a compilation keep. -/
structure Keeps (build : BuildContext) (H : Element → Prop) (P : List Operation → Prop)
    (B : Block → Prop) (E : TemplateFault → Prop) : Prop where
  nil : P []
  literal : ∀ s, P [.literal s]
  append : ∀ {xs ys}, P xs → P ys → P (xs ++ ys)
  operations : ∀ {block}, B block → P block
  join : ∀ {ops}, P ops → B (Block.ofOperations ops)
  around : ∀ {op block}, op.body? = some block → op.IsPlanned H → B block → B [op]
  inScope : ∀ {ds block}, B block → B (DirectiveSet.inScope ds block)
  inPlace : ∀ {element set id}, H element → DirectiveSet.ofTag element.start = .ok set →
    (set.metal? .defineMacro).isSome →
    build.registry.definitionAt? build.unit element.start.location.offset = some id →
    B [.callMacro (.known id) [] [] element.start.location]
  call : ∀ {element target} {fills : Fills} {location}, H element → build.Uses element fills location →
    build.IsTarget target fills.arguments location → fills.All B →
    B [.callMacro target fills.slots fills.arguments location]
  compile : ∀ problem location, E (.compile problem location)
  macros : ∀ problem location, problem ≠ .unregistered → E (.macros problem location)
  unregistered : ∀ {element set}, H element → DirectiveSet.ofTag element.start = .ok set →
    (set.metal? .defineMacro).isSome →
    build.registry.definitionAt? build.unit element.start.location.offset = none →
    E (.macros .unregistered element.start.location)

namespace Keeps

variable {build : BuildContext} {H : Element → Prop} {P : List Operation → Prop} {B : Block → Prop}
  {E : TemplateFault → Prop} {element : Element} {set : DirectiveSet} {block : Block}

/-! ### Directives -/

theorem located (hk : build.Keeps H P B E) {α : Type} (location : Location) (x : Except CompileProblem α) :
    Gives (fun a => x = .ok a) E (CompileProblem.located location x) :=
  CompileProblem.located_gives hk.compile location x

theorem ofTag (hk : build.Keeps H P B E) (start : StartTag) :
    Gives (fun _ => True) E (DirectiveSet.ofTag start) :=
  DirectiveSet.ofTag_gives hk.compile start

theorem read (hk : build.Keeps H P B E) {α : Type} (set : DirectiveSet) (kind : TalKind) (absent : α)
    (parse : String → Location → Except CompileProblem α) :
    Gives (fun _ => True) E (set.read kind absent parse) := by
  unfold DirectiveSet.read
  split
  · exact (hk.located _ _).imp fun _ _ _ => trivial
  · exact .ok trivial

theorem wrapBy (hk : build.Keeps H P B E) {α : Type} {kind : TalKind}
    {parse : String → Location → Except CompileProblem α} {wrap : α → Block → Block} (hb : B block)
    (hw : ∀ a, B (wrap a block)) : Gives B E (set.wrapBy kind parse wrap block) := by
  unfold DirectiveSet.wrapBy DirectiveSet.read
  split
  · refine (hk.located _ _).imp fun out _ h => ?_
    obtain ⟨a, -, rfl⟩ := map_eq_ok.1 h
    exact hw a
  · exact .ok hb

theorem wrap (hk : build.Keeps H P B E) (set : DirectiveSet) (hb : B block) :
    Gives B E (set.wrap block) := by
  unfold DirectiveSet.wrap
  refine (hk.wrapBy hb fun (_, _) => hk.around rfl nofun hb).bind fun b _ hb => ?_
  refine (hk.wrapBy hb fun _ => hk.around rfl (fun _ _ h => by cases h) hb).bind fun b _ hb => ?_
  refine (hk.wrapBy hb fun _ => hk.inScope hb).bind fun b _ hb => ?_
  exact hk.wrapBy hb fun (_, _) => hk.around rfl nofun hb

/-! ### Elements -/

theorem tag (hk : build.Keeps H P B E) (he : H element) {tag : TagPlan}
    (ht : element.start.plan element.closing set = .ok tag) (hb : B block) : B (tag.wrap block) := by
  have hclosing : P (tag.closing.map Operation.literal).toList := by
    cases tag.closing with
    | none => exact hk.nil
    | some s => exact hk.literal s
  unfold TagPlan.wrap
  split
  · exact hk.join (hk.operations hb)
  · exact hk.join (hk.append (hk.append (hk.literal _) (hk.operations hb)) hclosing)
  · refine hk.around rfl ?_ hb
    rintro _ _ ⟨⟩
    exact ⟨element, set, he, ht⟩

theorem plan (hk : build.Keeps H P B E) (start : StartTag) (closing : Option EndTag)
    (set : DirectiveSet) : Gives (fun _ => True) E (start.plan closing set) := by
  unfold StartTag.plan
  refine (hk.read ..).bind fun computed _ _ => ?_
  split
  · exact .ok trivial
  · exact (hk.read ..).bind fun omission _ _ => .ok trivial

theorem core (hk : build.Keeps H P B E) (he : H element) (set : DirectiveSet) (hb : B block) :
    Gives B E (element.start.core element.closing set block) := by
  have hclosing : P (element.closing.map fun e => .literal e.text).toList := by
    cases element.closing with
    | none => exact hk.nil
    | some e => exact hk.literal e.text
  unfold StartTag.core
  split
  · exact .ok (hk.join (hk.append (hk.append (hk.literal _) (hk.operations hb)) hclosing))
  · refine (hk.plan element.start element.closing set).bind fun tag ht _ => ?_
    split
    · exact .ok (hk.tag he ht hb)
    · refine (hk.located _ _).bind fun said _ _ => ?_
      dsimp only
      split
      · exact .ok (hk.around rfl nofun (hk.tag he ht hb))
      · exact .ok (hk.tag he ht (hk.around rfl nofun hb))

/-! ### Macros and slots -/

theorem slot (hk : build.Keeps H P B E) (d : Directive MetalKind) (hb : B block) :
    Gives B E (BuildContext.slot d block) := by
  unfold BuildContext.slot
  dsimp only
  split
  · exact .error (hk.compile ..)
  · exact .ok (hk.around rfl nofun hb)

theorem addArguments (hk : build.Keeps H P B E) {given : Fills} (hg : given.All B) (set : DirectiveSet) :
    Gives (Fills.All B) E (given.addArguments set) := by
  unfold Fills.addArguments
  split
  · exact .ok hg
  · exact (hk.located _ _).bind fun more _ _ => .ok hg

theorem resolve (hk : build.Keeps H P B E) (e : Expression) (location : Location) :
    Gives (fun _ => True) E (build.registry.resolve? build.unit e location) := by
  unfold MacroRegistry.resolve? MacroRegistry.resolveIn?
  split
  · split
    · exact .ok trivial
    · split
      · exact .ok trivial
      · split <;> exact .error (hk.macros _ _ (by simp))
  · exact .ok trivial

theorem use (hk : build.Keeps H P B E) (he : H element) (hset : DirectiveSet.ofTag element.start = .ok set)
    {use : Directive MetalKind} (hu : set.metal? .useMacro = some use)
    (hfills : ∀ given : Fills, given.All B → Gives (Fills.All B) E (build.fillsOf given element.children)) :
    Gives B E (build.call set use fun found => build.fillsOf found element.children) := by
  have hnone : Fills.none.All B := by
    intro fill hf
    cases hf
  unfold BuildContext.call
  refine (hk.located _ _).bind fun e _ _ => (hk.resolve e.expression use.location).bind fun id? hid _ => ?_
  refine (hk.addArguments hnone set).bind fun given hgiven hg => (hfills given hg).bind fun fills hfound hf => ?_
  have huses : build.Uses element fills use.location := .intro hset hu hgiven hfound
  cases id? with
  | none => exact .ok (hk.call he huses (fun id h => by cases h) hf)
  | some id =>
    dsimp only
    split
    · exact .error (hk.macros _ _ (by simp))
    · next hunknown =>
      refine .ok (hk.call he huses (fun id' h => ?_) hf)
      cases h
      exact ⟨⟨e.expression, hid⟩, hunknown⟩

theorem placed (hk : build.Keeps H P B E) (set : DirectiveSet) {core : Block} (hc : B core) :
    Gives B E (do
      let block ← set.wrap core
      match set.metal? .defineSlot with
      | some d => BuildContext.slot d block
      | none => return block) := by
  refine (hk.wrap set hc).bind fun b _ hb => ?_
  split
  · exact hk.slot _ hb
  · exact .ok hb

/-- The block of an element, from what its children give. -/
theorem elementOf (hk : build.Keeps H P B E) (he : H element) (ho : Gives P E (build.operations element.children))
    (hf : ∀ given : Fills, given.All B → Gives (Fills.All B) E (build.fillsOf given element.children)) :
    Gives B E (build.element element.start element.closing (fun _ => build.nodes element.children)
      fun found => build.fillsOf found element.children) := by
  unfold BuildContext.element
  refine (hk.ofTag element.start).bind fun set hset _ => ?_
  split
  · next hd =>
    have hd := (Bool.and_eq_true_iff.1 hd).1
    unfold BuildContext.callInPlace
    split
    · next id hid => exact .ok (hk.inPlace he hset hd hid)
    · next hnone => exact .error (hk.unregistered he hset hd hnone)
  · dsimp only
    split
    · exact .error (hk.compile ..)
    · cases hu : set.metal? .useMacro with
      | some use => exact (hk.use he hset hu hf).bind fun core _ hc => hk.placed set hc
      | none =>
        have hchildren : Gives B E (build.nodes element.children) := ho.map fun _ h => hk.join h
        exact hchildren.bind fun b _ hb => (hk.core he set hb).bind fun core _ hc => hk.placed set hc

/-! ### Trees -/

mutual

theorem node (hk : build.Keeps H P B E) : ∀ n : Node, (∀ e ∈ n.elements, H e) → Gives P E (build.node n)
  | .markup _ s _, _ => .ok (hk.literal s)
  | .element start children closing, h => by
    have hs : ∀ e ∈ Node.elementsOf children, H e := fun e he => h e (by simp [Node.elements, he])
    have he : H ⟨start, children, closing⟩ := h _ (by simp [Node.elements])
    exact (hk.elementOf he (hk.forest children hs) fun _ hg => hk.fillsOf children hs hg).imp
      fun _ _ hb => hk.operations hb

theorem forest (hk : build.Keeps H P B E) : ∀ ns : List Node, (∀ e ∈ Node.elementsOf ns, H e) →
    Gives P E (build.operations ns)
  | [], _ => .ok hk.nil
  | n :: ns, h => by
    have hn := hk.node n fun e he => h e (by simp [Node.elementsOf, he])
    have hns := hk.forest ns fun e he => h e (by simp [Node.elementsOf, he])
    rw [BuildContext.operations]
    exact hn.bind fun first _ hf => hns.bind fun others _ ho => .ok (hk.append hf ho)

theorem fillsOfNode (hk : build.Keeps H P B E) : ∀ (n : Node), (∀ e ∈ n.elements, H e) →
    ∀ {given : Fills}, given.All B → Gives (Fills.All B) E (build.fillsOfNode given n)
  | .markup .., _, given, hg => .ok hg
  | .element start children closing, h, given, hg => by
    have hs : ∀ e ∈ Node.elementsOf children, H e := fun e he => h e (by simp [Node.elements, he])
    have he : H ⟨start, children, closing⟩ := h _ (by simp [Node.elements])
    have hbody := hk.elementOf he (hk.forest children hs) fun _ hg => hk.fillsOf children hs hg
    rw [BuildContext.fillsOfNode]
    refine (hk.ofTag start).bind fun set _ _ => (hk.addArguments hg set).bind fun found _ hfound => ?_
    cases set.metal? .fillSlot with
    | some d =>
      dsimp only
      split
      · exact .ok hfound
      · refine hbody.bind fun body _ hb => .ok fun fill hf => ?_
        rcases List.mem_append.1 hf with hf | hf
        · exact hfound fill hf
        · rw [List.mem_singleton.1 hf]
          exact hb
    | none =>
      dsimp only
      split
      · exact .ok hfound
      · exact hk.fillsOf children hs hfound

theorem fillsOf (hk : build.Keeps H P B E) : ∀ (ns : List Node), (∀ e ∈ Node.elementsOf ns, H e) →
    ∀ {given : Fills}, given.All B → Gives (Fills.All B) E (build.fillsOf given ns)
  | [], _, given, hg => .ok hg
  | n :: ns, h, given, hg => by
    have hn := hk.fillsOfNode n (fun e he => h e (by simp [Node.elementsOf, he])) hg
    rw [BuildContext.fillsOf]
    exact hn.bind fun found _ hf => hk.fillsOf ns (fun e he => h e (by simp [Node.elementsOf, he])) hf

end

/-- The block of a template. -/
theorem nodes (hk : build.Keeps H P B E) {ns : List Node} (h : ∀ e ∈ Node.elementsOf ns, H e) :
    Gives B E (build.nodes ns) :=
  (hk.forest ns h).map fun _ => hk.join

end Keeps

end BuildContext

/-- The body of a macro that is built. -/
theorem MacroRegistry.build_gives {r : MacroRegistry} {parameters : List (List Parameter)}
    {d : MacroDefinition} {H : Element → Prop} {P : List Operation → Prop} {B : Block → Prop}
    {E : TemplateFault → Prop}
    (hk : BuildContext.Keeps ⟨r, parameters, d.unit, some d.location.offset⟩ H P B E)
    (h : ∀ e ∈ d.element :: Node.elementsOf d.element.children, H e) (declared : List Parameter) :
    Gives (fun m => B m.body) E (r.build parameters (d, declared)) := by
  have hbelow : ∀ e ∈ Node.elementsOf d.element.children, H e := fun e he => h e (by simp [he])
  have hbody := hk.elementOf (h d.element (by simp)) (hk.forest _ hbelow) fun _ hg => hk.fillsOf _ hbelow hg
  exact hbody.bind fun _ _ hb => .ok hb

end MarkupTemplate
