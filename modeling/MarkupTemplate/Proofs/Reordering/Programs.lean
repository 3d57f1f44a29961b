import MarkupTemplate.Compile.Basic
import MarkupTemplate.Proofs.Reordering.Blocks

/-!
# Programs of trees that are alike

Two trees that are alike import the same templates and define macros on elements that are alike, so the
registries filled from them are alike, whatever else is registered before; from these the same program is built
up to the places in it, or both trees are refused (`Program.ofDocument_together`).
-/

namespace MarkupTemplate

variable {s t : DirectiveSet} {start start' : StartTag} {closing closing' : Option EndTag}
  {children children' : List Node}

theorem StartTag.Alike.element (hstart : start.Alike start') (hchildren : Node.AllAlike children children')
    (hclosing : closing.map EndTag.text = closing'.map EndTag.text) :
    (⟨start, children, closing⟩ : Element).Alike ⟨start', children', closing'⟩ :=
  ⟨hstart, hchildren, hclosing⟩

/-! ### Macro directives -/

namespace MacroDirectives

/-- The imports are the same, and the macros have the same names and stand on elements that are alike. -/
structure Alike (d e : MacroDirectives) : Prop where
  imports : List.Forall₂ (Same Prod.fst) d.imports e.imports
  macros : List.Forall₂ (fun m m' => m.1 = m'.1 ∧ m.2.Alike m'.2) d.macros e.macros

theorem Alike.append {d d' e e' : MacroDirectives} (h : d.Alike d') (h' : e.Alike e') :
    (d.append e).Alike (d'.append e') :=
  ⟨List.rel_append h.imports h'.imports, List.rel_append h.macros h'.macros⟩

theorem ofElement_alike (h : s.Alike t) {element element' : Element} (he : element.Alike element') :
    (ofElement s element).Alike (ofElement t element') where
  imports := by
    have hd := h.metal .importMacros
    unfold ofElement
    generalize s.metal? .importMacros = d at hd ⊢
    generalize t.metal? .importMacros = e at hd ⊢
    cases hd with
    | none => exact .nil
    | some hd => exact .cons hd.argument .nil
  macros := by
    have hd := h.metal .defineMacro
    unfold ofElement
    generalize s.metal? .defineMacro = d at hd ⊢
    generalize t.metal? .defineMacro = e at hd ⊢
    cases hd with
    | none => exact .nil
    | some hd => exact .cons ⟨congrArg Text.trimString hd.argument, he⟩ .nil

mutual

theorem ofNode_together : ∀ {n n' : Node}, n.Alike n' → Together Alike (ofNode n) (ofNode n')
  | _, _, .markup .. => .ok ⟨.nil, .nil⟩
  | _, _, .element hstart hchildren hclosing => by
    rw [ofNode, ofNode]
    exact hstart.ofTag.bind fun s t hset => (ofNodes_together hchildren).bind
      fun _ _ hinside => .ok ((ofElement_alike hset (hstart.element hchildren hclosing)).append hinside)

theorem ofNodes_together : ∀ {ns ns' : List Node}, Node.AllAlike ns ns' →
    Together Alike (ofNodes ns) (ofNodes ns')
  | _, _, .nil => .ok ⟨.nil, .nil⟩
  | _, _, .cons hn hns => by
    rw [ofNodes, ofNodes]
    exact (ofNode_together hn).bind fun _ _ hfirst => (ofNodes_together hns).bind
      fun _ _ hothers => .ok (hfirst.append hothers)

end

end MacroDirectives

/-! ### Registering -/

namespace MacroRegistry

/-- The registries are alike, and what comes with them is the same. -/
def AlikeWith {α : Type} (x x' : MacroRegistry × α) : Prop :=
  x.1.Alike x'.1 ∧ x.2 = x'.2

/-- Importers keep registries alike. -/
def ImportAlike (load load' : Importer) : Prop :=
  ∀ target location location' r r', r.Alike r' →
    Together AlikeWith (load target location r) (load' target location' r')

variable {load load' : Importer} {r r' : MacroRegistry}

theorem importEntry_together (h : ImportAlike load load') (path : Option String) (location location' : Location)
    {state state' : MacroRegistry × MacroNames} (hstate : AlikeWith state state')
    (entry : Directive.ImportEntry) :
    Together AlikeWith (importEntry load path location state entry)
      (importEntry load' path location' state' entry) := by
  unfold importEntry
  refine (h _ location location' _ _ hstate.1).bind ?_
  rintro ⟨r, unit⟩ ⟨r', unit'⟩ ⟨hr, hunit⟩
  have hr : r.Alike r' := hr
  obtain rfl : unit = unit' := hunit
  refine .ok ⟨hr, ?_⟩
  rw [names, names, hr.units, hstate.2]

theorem importAll_together (h : ImportAlike load load') (path : Option String)
    {state state' : MacroRegistry × MacroNames} (hstate : AlikeWith state state')
    {directive directive' : String × Location} (hd : Same Prod.fst directive directive') :
    Together AlikeWith (importAll load path state directive) (importAll load' path state' directive') := by
  have hd : directive.1 = directive'.1 := hd
  unfold importAll
  rw [hd]
  refine Together.foldlM (R := Eq) (List.forall₂_refl _) ?_ hstate
  rintro entry _ b b' rfl hb
  exact importEntry_together h path _ _ hb entry

theorem defineMacro_together (unit : Nat) {state state' : MacroRegistry × Fields Nat}
    (hstate : AlikeWith state state') {definition definition' : String × Element}
    (hd : definition.1 = definition'.1 ∧ definition.2.Alike definition'.2) :
    Together AlikeWith (defineMacro unit state definition) (defineMacro unit state' definition') := by
  obtain ⟨r, own⟩ := state
  obtain ⟨r', own'⟩ := state'
  obtain ⟨name, element⟩ := definition
  obtain ⟨name', element'⟩ := definition'
  obtain ⟨hr, hown⟩ := hstate
  obtain ⟨hname, helement⟩ := hd
  dsimp only at hr hown hname helement
  subst hown hname
  unfold defineMacro
  dsimp only
  split
  · exact .error _ _
  split
  · exact .error _ _
  refine .ok ⟨⟨hr.units, List.rel_append hr.definitions (.cons ?_ .nil)⟩, ?_⟩
  · exact ⟨rfl, rfl, helement, helement.start.offset⟩
  · rw [hr.definitions.length_eq]

theorem registerDocument_together (h : ImportAlike load load') {document document' : Document}
    (hd : Node.AllAlike document.nodes document'.nodes) (path : Option String) (hr : r.Alike r') :
    Together AlikeWith (registerDocument load document path r) (registerDocument load' document' path r') := by
  unfold registerDocument
  refine (MacroDirectives.ofNodes_together hd).bind fun d d' hdirectives => ?_
  have hbefore : AlikeWith ((⟨r.units ++ [⟨path, []⟩], r.definitions⟩, [("", [])]) : MacroRegistry × MacroNames)
      (⟨r'.units ++ [⟨path, []⟩], r'.definitions⟩, [("", [])]) :=
    ⟨⟨by rw [hr.units], hr.definitions⟩, rfl⟩
  refine (Together.foldlM hdirectives.imports (fun _ _ _ _ hi hb => importAll_together h path hb hi)
    hbefore).bind ?_
  rintro ⟨r₁, names⟩ ⟨r₁', names'⟩ ⟨hr₁, hnames⟩
  obtain rfl : names = names' := hnames
  have hunit : r.units.length = r'.units.length := by rw [hr.units]
  rw [hunit]
  have hown : AlikeWith ((r₁, []) : MacroRegistry × Fields Nat) (r₁', []) := ⟨hr₁, rfl⟩
  refine (Together.foldlM hdirectives.macros (fun _ _ _ _ hm hb => defineMacro_together _ hb hm) hown).bind ?_
  rintro ⟨r₂, own⟩ ⟨r₂', own'⟩ ⟨hr₂, hown⟩
  obtain rfl : own = own' := hown
  have hr₂ : r₂.Alike r₂' := hr₂
  exact .ok ⟨⟨by rw [hr₂.units], hr₂.definitions⟩, rfl⟩

theorem importUnit_together (provider : ResourceProvider) (depth : Nat) (chain : List String) :
    ImportAlike (importUnit provider depth chain) (importUnit provider depth chain) := by
  induction depth generalizing chain with
  | zero => exact fun _ _ _ _ _ _ => .error _ _
  | succ depth ih =>
    intro target location location' r r' hr
    unfold importUnit unitAt?
    rw [hr.units]
    split
    · exact .error _ _
    split
    · exact .ok ⟨hr, rfl⟩
    refine Together.bind_same _ fun text => ?_
    split
    · exact .error _ _
    · exact registerDocument_together (ih _) (Node.AllAlike.refl _) _ hr

theorem ofMain_together (provider : ResourceProvider) {document document' : Document}
    (hd : Node.AllAlike document.nodes document'.nodes) (path : Option String) :
    Together Alike (ofMain provider document path) (ofMain provider document' path) := by
  unfold ofMain
  exact (registerDocument_together (importUnit_together provider _ _) hd path ⟨rfl, .nil⟩).bind
    fun _ _ h => .ok h.1

end MacroRegistry

/-! ### Parameters -/

namespace Element

variable {found found' : List Parameter}

theorem declare_together (h : Same (List.map Parameter.unplaced) found found') {d e : Directive MetalKind}
    (hd : d.Alike e) : Together (Same (List.map Parameter.unplaced)) (declare found d) (declare found' e) := by
  unfold declare
  rw [hd.argument]
  refine (CompileProblem.located_together (Directive.parameters_together _ _ _) _ _).bind
    fun ps ps' hps => Together.foldlM (forall₂_same.2 hps) ?_ h
  intro p p' found found' hp hfound
  have hname : p.name = p'.name := show p.unplaced.name = p'.unplaced.name from congrArg _ hp
  rw [Parameter.any_unplaced, hfound, ← Parameter.any_unplaced, hname]
  split
  · exact .error _ _
  · refine .ok ?_
    simp only [Same, List.map_append, List.map_cons, List.map_nil] at hp hfound ⊢
    rw [hp, hfound]

theorem declareAll_together (h : Same (List.map Parameter.unplaced) found found') (hset : s.Alike t) :
    Together (Same (List.map Parameter.unplaced)) (declareAll found s) (declareAll found' t) := by
  have hd := hset.metal .defineParam
  unfold declareAll
  generalize s.metal? .defineParam = d at hd ⊢
  generalize t.metal? .defineParam = e at hd ⊢
  cases hd with
  | none => exact .ok h
  | some hd => exact declare_together h hd

mutual

theorem parametersOfNode_together : ∀ {n n' : Node}, n.Alike n' → ∀ {found found' : List Parameter},
    Same (List.map Parameter.unplaced) found found' →
      Together (Same (List.map Parameter.unplaced)) (parametersOfNode found n) (parametersOfNode found' n')
  | _, _, .markup .., _, _, h => .ok h
  | _, _, .element hstart hchildren _, found, found', h => by
    rw [parametersOfNode, parametersOfNode]
    refine hstart.ofTag.bind fun s t hset => ?_
    rw [isSome_of_rel (hset.metal .defineMacro)]
    split
    · exact .ok h
    · exact (declareAll_together h hset).bind fun _ _ h => parametersBelow_together hchildren h

theorem parametersBelow_together : ∀ {ns ns' : List Node}, Node.AllAlike ns ns' →
    ∀ {found found' : List Parameter}, Same (List.map Parameter.unplaced) found found' →
      Together (Same (List.map Parameter.unplaced)) (parametersBelow found ns) (parametersBelow found' ns')
  | _, _, .nil, _, _, h => .ok h
  | _, _, .cons hn hns, found, found', h => by
    rw [parametersBelow, parametersBelow]
    exact (parametersOfNode_together hn h).bind fun _ _ h => parametersBelow_together hns h

end

theorem Alike.parameters {e f : Element} (h : e.Alike f) :
    Together (Same (List.map Parameter.unplaced)) e.parameters f.parameters := by
  unfold Element.parameters
  exact h.start.ofTag.bind fun s t hset => (declareAll_together rfl hset).bind
    fun _ _ hfound => parametersBelow_together h.children hfound

end Element

/-! ### Programs -/

theorem MacroRegistry.Alike.build {r r' : MacroRegistry} (h : r.Alike r')
    {parameters parameters' : List (List Parameter)}
    (hparameters : Same (List.map (List.map Parameter.unplaced)) parameters parameters')
    {d d' : MacroDefinition} (hd : d.Alike d') {declared declared' : List Parameter}
    (hdeclared : Same (List.map Parameter.unplaced) declared declared') :
    Together (Same Macro.unplaced) (r.build parameters (d, declared))
      (r'.build parameters' (d', declared')) := by
  unfold MacroRegistry.build
  have hcontext : BuildContext.Alike ⟨r, parameters, d.unit, some d.location.offset⟩
      ⟨r', parameters', d'.unit, some d'.location.offset⟩ :=
    ⟨h, hparameters, hd.unit, by rw [hd.offset]⟩
  refine (hcontext.elementOf hd.element.start hd.element.closing (hcontext.operations hd.element.children)
    fun _ _ hfound => hcontext.fillsOf hd.element.children hfound).bind fun body body' hbody => .ok ?_
  simp only [Same, Macro.unplaced, path?] at hdeclared hbody ⊢
  rw [hdeclared, hbody, hd.name, hd.unit, h.units]

theorem Program.ofDocument_together (provider : ResourceProvider) {document document' : Document}
    (hd : Node.AllAlike document.nodes document'.nodes) (path : Option String) :
    Together (Same unplaced) (ofDocument provider document path) (ofDocument provider document' path) := by
  unfold ofDocument
  refine (MacroRegistry.ofMain_together provider hd path).bind fun r r' hr => ?_
  refine (Together.mapM hr.definitions fun d d' hd => hd.element.parameters).bind fun ps ps' hps => ?_
  have hparameters : Same (List.map (List.map Parameter.unplaced)) ps ps' := forall₂_same.1 hps
  refine (Together.mapM (forall₂_zip hr.definitions hps) fun d d' hd =>
    hr.build hparameters hd.1 hd.2).bind fun ms ms' hms => ?_
  have hcontext : BuildContext.Alike ⟨r, ps, 0, none⟩ ⟨r', ps', 0, none⟩ := ⟨hr, hparameters, rfl, rfl⟩
  refine (hcontext.nodes hd).bind fun body body' hbody => .ok ?_
  simp only [Same, unplaced, MacroRegistry.names] at hbody ⊢
  rw [hbody, forall₂_same.1 hms, hr.units]

end MarkupTemplate
