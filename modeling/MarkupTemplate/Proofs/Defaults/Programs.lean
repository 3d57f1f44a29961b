import MarkupTemplate.Compile.Basic
import MarkupTemplate.Proofs.Defaults.Blocks
import MarkupTemplate.Proofs.Render.Rewriting

/-!
# Programs of trees without a directive

A tree and what is left of it import the same templates and define macros of the same names and parameters at the same
places, so where the tree is compiled, what is left of it is compiled to a lighter program
(`Program.ofDocument_without`).
-/

namespace MarkupTemplate

variable {r : Removal} {start start' : StartTag} {closing closing' : Option EndTag} {set other : DirectiveSet}

/-! ### Macro directives -/

namespace MacroDirectives

/-- The imports are the same, and the macros have the same names and stand on elements that are cut down. -/
structure Cut (r : Removal) (d d' : MacroDirectives) : Prop where
  imports : d'.imports = d.imports
  macros : List.Forall₂ (fun m m' => m'.1 = m.1 ∧ m.2.Cut r m'.2) d.macros d'.macros

theorem Cut.append {d d' e e' : MacroDirectives} (h : d.Cut r d') (he : e.Cut r e') :
    (d.append e).Cut r (d'.append e') :=
  ⟨congrArg₂ (· ++ ·) h.imports he.imports, List.rel_append h.macros he.macros⟩

theorem ofElement_cut (hset : Removal.Cuts.Sets r start closing set start' closing' other) {e e' : Element}
    (he : e.Cut r e') : (ofElement set e).Cut r (ofElement other e') where
  imports := by rw [ofElement, ofElement, hset.metal?]
  macros := by
    unfold ofElement
    rw [hset.metal?]
    cases set.metal? .defineMacro with
    | none => exact .nil
    | some d => exact .cons ⟨rfl, he⟩ .nil

mutual

theorem ofNode_cut : ∀ {n n' : Node}, n.Cut r n' → Follows (Cut r) (ofNode n) (ofNode n')
  | _, _, .markup .. => .ok ⟨rfl, .nil⟩
  | _, _, .element htags hchildren => by
    rw [ofNode, ofNode]
    exact htags.sets.bind fun _ _ hset => (ofNodes_cut hchildren).bind fun _ _ hinside =>
      .ok ((ofElement_cut hset ⟨htags, hchildren⟩).append hinside)

theorem ofNodes_cut : ∀ {ns ns' : List Node}, Node.AllCut r ns ns' → Follows (Cut r) (ofNodes ns) (ofNodes ns')
  | _, _, .nil => .ok ⟨rfl, .nil⟩
  | _, _, .cons hn hns => by
    rw [ofNodes, ofNodes]
    exact (ofNode_cut hn).bind fun _ _ hfirst => (ofNodes_cut hns).bind fun _ _ hothers =>
      .ok (hfirst.append hothers)

end

end MacroDirectives

/-! ### Registering -/

namespace MacroRegistry

/-- The registries are the same but for the directive, and what comes with them is the same. -/
def CutWith {α : Type} (r : Removal) (x x' : MacroRegistry × α) : Prop :=
  x.1.Cut r x'.1 ∧ x'.2 = x.2

/-- Importers keep registries the same but for the directive. -/
def ImportCut (r : Removal) (load load' : Importer) : Prop :=
  ∀ target location m m', m.Cut r m' → Follows (CutWith r) (load target location m) (load' target location m')

variable {load load' : Importer} {m m' : MacroRegistry}

theorem importEntry_cut (h : ImportCut r load load') (path : Option String) (location : Location)
    {state state' : MacroRegistry × MacroNames} (hstate : CutWith r state state') (entry : Directive.ImportEntry) :
    Follows (CutWith r) (importEntry load path location state entry)
      (importEntry load' path location state' entry) := by
  unfold importEntry
  refine (h _ location _ _ hstate.1).bind ?_
  rintro ⟨m, unit⟩ ⟨m', unit'⟩ ⟨hm, hunit⟩
  have hm : m.Cut r m' := hm
  obtain rfl : unit' = unit := hunit
  refine .ok ⟨hm, ?_⟩
  rw [names, names, hm.units, hstate.2]

theorem importAll_cut (h : ImportCut r load load') (path : Option String)
    {state state' : MacroRegistry × MacroNames} (hstate : CutWith r state state') (directive : String × Location) :
    Follows (CutWith r) (importAll load path state directive) (importAll load' path state' directive) := by
  refine Follows.foldlM (T := Eq) (List.forall₂_refl _) ?_ hstate
  rintro entry _ state state' rfl hstate
  exact importEntry_cut h path _ hstate entry

theorem defineMacro_cut (unit : Nat) {state state' : MacroRegistry × Fields Nat} (hstate : CutWith r state state')
    {definition definition' : String × Element}
    (hd : definition'.1 = definition.1 ∧ definition.2.Cut r definition'.2) :
    Follows (CutWith r) (defineMacro unit state definition) (defineMacro unit state' definition') := by
  obtain ⟨m, own⟩ := state
  obtain ⟨m', own'⟩ := state'
  obtain ⟨name, element⟩ := definition
  obtain ⟨name', element'⟩ := definition'
  obtain ⟨hm, hown⟩ := hstate
  obtain ⟨hname, helement⟩ := hd
  dsimp only at hm hown hname helement
  subst hown hname
  unfold defineMacro
  dsimp only
  split
  · exact .error _
  split
  · exact .error _
  refine .ok ⟨⟨hm.units, List.rel_append hm.definitions (.cons ?_ .nil)⟩, ?_⟩
  · exact ⟨rfl, rfl, helement, helement.tags.location⟩
  · rw [hm.definitions.length_eq]

theorem registerDocument_cut (h : ImportCut r load load') {document document' : Document}
    (hd : Node.AllCut r document.nodes document'.nodes) (path : Option String) (hm : m.Cut r m') :
    Follows (CutWith r) (registerDocument load document path m) (registerDocument load' document' path m') := by
  unfold registerDocument
  refine (MacroDirectives.ofNodes_cut hd).bind fun d d' hdirectives => ?_
  have hbefore : CutWith r ((⟨m.units ++ [⟨path, []⟩], m.definitions⟩, [("", [])]) : MacroRegistry × MacroNames)
      (⟨m'.units ++ [⟨path, []⟩], m'.definitions⟩, [("", [])]) :=
    ⟨⟨by rw [hm.units], hm.definitions⟩, rfl⟩
  rw [hdirectives.imports]
  refine (Follows.foldlM (T := Eq) (List.forall₂_refl _) ?_ hbefore).bind ?_
  · rintro directive _ state state' rfl hstate
    exact importAll_cut h path hstate directive
  rintro ⟨m₁, names⟩ ⟨m₁', names'⟩ ⟨hm₁, hnames⟩
  obtain rfl : names' = names := hnames
  rw [hm.units]
  have hown : CutWith r ((m₁, []) : MacroRegistry × Fields Nat) (m₁', []) := ⟨hm₁, rfl⟩
  refine (Follows.foldlM hdirectives.macros (fun _ _ _ _ hd hstate => defineMacro_cut _ hstate hd) hown).bind ?_
  rintro ⟨m₂, own⟩ ⟨m₂', own'⟩ ⟨hm₂, hown⟩
  obtain rfl : own' = own := hown
  have hm₂ : m₂.Cut r m₂' := hm₂
  exact .ok ⟨⟨by rw [hm₂.units], hm₂.definitions⟩, rfl⟩

theorem importUnit_cut (r : Removal) (provider : ResourceProvider) (depth : Nat) (chain : List String) :
    ImportCut r (importUnit provider depth chain) (importUnit provider depth chain) := by
  induction depth generalizing chain with
  | zero => exact fun _ _ _ _ _ => .error _
  | succ depth ih =>
    intro target location m m' hm
    unfold importUnit unitAt?
    rw [hm.units]
    split
    · exact .error _
    split
    · exact .ok ⟨hm, rfl⟩
    refine (Follows.refl (R := Eq) (fun _ => rfl) _).bind ?_
    rintro text _ rfl
    split
    · exact .error _
    · exact registerDocument_cut (ih _) (Node.AllCut.refl _) _ hm

theorem ofMain_cut (provider : ResourceProvider) {document document' : Document}
    (hd : Node.AllCut r document.nodes document'.nodes) (path : Option String) :
    Follows (Cut r) (ofMain provider document path) (ofMain provider document' path) := by
  unfold ofMain
  exact (registerDocument_cut (importUnit_cut r provider _ _) hd path ⟨rfl, .nil⟩).bind fun _ _ h => .ok h.1

end MacroRegistry

/-! ### Parameters -/

namespace Element

mutual

theorem parametersOfNode_cut (found : List Parameter) : ∀ {n n' : Node}, n.Cut r n' →
    Follows Eq (parametersOfNode found n) (parametersOfNode found n')
  | _, _, .markup .. => .ok rfl
  | _, _, .element htags hchildren => by
    rw [parametersOfNode, parametersOfNode]
    refine htags.sets.bind fun set other hset => ?_
    rw [hset.metal?]
    split
    · exact .ok rfl
    · have hdeclare : declareAll found other = declareAll found set := by
        rw [declareAll, declareAll, hset.metal?]
      rw [hdeclare]
      refine (Follows.refl (R := Eq) (fun _ => rfl) _).bind ?_
      rintro found _ rfl
      exact parametersBelow_cut found hchildren

theorem parametersBelow_cut (found : List Parameter) : ∀ {ns ns' : List Node}, Node.AllCut r ns ns' →
    Follows Eq (parametersBelow found ns) (parametersBelow found ns')
  | _, _, .nil => .ok rfl
  | _, _, .cons hn hns => by
    rw [parametersBelow, parametersBelow]
    refine (parametersOfNode_cut found hn).bind ?_
    rintro found _ rfl
    exact parametersBelow_cut found hns

end

/-- No directive of TAL declares a parameter. -/
theorem Cut.parameters {e e' : Element} (h : e.Cut r e') : Follows Eq e.parameters e'.parameters := by
  unfold Element.parameters
  refine h.tags.sets.bind fun set other hset => ?_
  have hdeclare : declareAll [] other = declareAll [] set := by
    rw [declareAll, declareAll, hset.metal?]
  rw [hdeclare]
  refine (Follows.refl (R := Eq) (fun _ => rfl) _).bind ?_
  rintro found _ rfl
  exact parametersBelow_cut found h.children

end Element

/-! ### Programs -/

/-- The bodies of the second program are lighter, and all else is the same. -/
structure Program.Lightens (r : Removal) (p p' : Program) : Prop where
  body : r.Lightens p.body p'.body
  macros : List.Forall₂ (Macro.Matches r.Lightens) p.macros p'.macros
  namespaces : p'.namespaces = p.namespaces

theorem MacroRegistry.Cut.build {m m' : MacroRegistry} (h : m.Cut r m') (parameters : List (List Parameter))
    {d d' : MacroDefinition} (hd : d.Cut r d') (declared : List Parameter) :
    Follows (Macro.Matches r.Lightens) (m.build parameters (d, declared)) (m'.build parameters (d', declared)) := by
  have hcontext : BuildContext.Cut r ⟨m, parameters, d.unit, some d.location.offset⟩
      ⟨m', parameters, d'.unit, some d'.location.offset⟩ := ⟨h, rfl, hd.unit, by rw [hd.location]⟩
  exact (hcontext.elementOf hd.element).bind fun body body' hbody => .ok ⟨hd.name, rfl, hbody⟩

theorem Program.ofDocument_cut (provider : ResourceProvider) {document document' : Document}
    (hd : Node.AllCut r document.nodes document'.nodes) (path : Option String) :
    Follows (Lightens r) (ofDocument provider document path) (ofDocument provider document' path) := by
  unfold ofDocument
  refine (MacroRegistry.ofMain_cut provider hd path).bind fun m m' hm => ?_
  refine (Follows.mapM hm.definitions fun d d' hd => hd.element.parameters).bind fun ps ps' hps => ?_
  obtain rfl : ps = ps' := List.forall₂_eq_eq_eq ▸ hps
  have hsame : List.Forall₂ Eq ps ps := List.forall₂_refl ps
  have hmacros : Follows (List.Forall₂ (Macro.Matches r.Lightens)) ((m.definitions.zip ps).mapM (m.build ps))
      ((m'.definitions.zip ps).mapM (m'.build ps)) := by
    refine Follows.mapM (forall₂_zip hm.definitions hsame) ?_
    rintro ⟨d, declared⟩ ⟨d', declared'⟩ ⟨hd, hdeclared⟩
    obtain rfl : declared = declared' := hdeclared
    exact hm.build ps hd declared
  refine hmacros.bind fun ms ms' hms => ?_
  have hcontext : BuildContext.Cut r ⟨m, ps, 0, none⟩ ⟨m', ps, 0, none⟩ := ⟨hm, rfl, rfl, rfl⟩
  refine (hcontext.nodes hd).bind fun body body' hbody => .ok ⟨hbody, hms, ?_⟩
  dsimp only
  rw [MacroRegistry.names, MacroRegistry.names, hm.units]

/-- Where a tree is compiled, what is left of it without a directive is compiled to a lighter program. -/
theorem Program.ofDocument_without (provider : ResourceProvider) (document : Document) (r : Removal)
    (path : Option String) :
    Follows (Lightens r) (ofDocument provider document path) (ofDocument provider (document.without r) path) :=
  ofDocument_cut provider (Node.allCut_withoutAll r document.nodes) path

end MarkupTemplate
