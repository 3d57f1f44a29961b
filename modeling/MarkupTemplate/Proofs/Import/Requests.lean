import MarkupTemplate.Compile.Registry
import MarkupTemplate.Proofs.Compile.Directives
import MarkupTemplate.Proofs.Import.Closure
import MarkupTemplate.Proofs.Markup.Scan

/-!
# The imports that a tree asks for

The directives of a tree name the templates that its registration asks for (`MacroDirectives.requests`). The
scan takes an attribute for an import exactly where a tag with valid directives has its import directive
(`DirectiveSet.requests_add`), so in a source where scan and builder are in step it finds these requests, in
their order (`importTargets_eq_requests`).
-/

namespace MarkupTemplate

/-! ### Attributes that import -/

theorem QName.language?_eq_metal {q : QName} : q.language? = some .metal ↔ q.isIn metalSpace := by
  unfold QName.language?
  constructor
  · intro h
    split at h
    · cases h
    · split at h
      · assumption
      · cases h
  · intro h
    have hspace : q.space = some metalSpace := by simpa [isIn] using h
    have htal : q.isIn talSpace = false := by
      rw [isIn, hspace]
      decide
    rw [htal, if_pos h]
    rfl

theorem MetalKind.parse?_eq_import {name : String} :
    parse? name = some .importMacros ↔ name = "import" := by
  constructor
  · intro h
    unfold parse? at h
    split at h <;> first | rfl | cases h
  · rintro rfl
    rfl

/-- An attribute of a tag as the scan lists it. -/
def StartTag.scannedAs (start : StartTag) (a : Attribute) : ScannedAttribute :=
  ⟨start.name, a.name, a.rawName, a.value, a.location⟩

theorem StartTag.scanned_eq (start : StartTag) :
    start.scanned = start.attributes.map start.scannedAs := rfl

/-- The templates that the argument of an import names, with paths relative to `path` resolved. -/
def importRequests (path : Option String) (argument : String) : List String :=
  (Directive.imports argument).map fun entry => resolveUri entry.path path

section Attributes

variable {start : StartTag} {a : Attribute} {path : Option String}

theorem targets_of_not_import {s : ScannedAttribute} (h : s.isImport = false) :
    s.targets path = .ok [] := by
  rw [ScannedAttribute.targets, h]
  rfl

theorem targets_of_import {s : ScannedAttribute} {text : String} (h : s.isImport = true)
    (ht : unescape (s.value.getD "") = .ok text) : s.targets path = .ok (importRequests path text) := by
  rw [ScannedAttribute.targets, h, ht]
  rfl

theorem isImport_of_ne (h : a.name.name ≠ "import") : (start.scannedAs a).isImport = false := by
  have hname : (a.name.name == "import") = false := by simpa using h
  show (a.name.name == "import" && _) = false
  rw [hname, Bool.false_and]

/-- What is no directive is no import. -/
theorem isImport_of_language?_none (h : start.language? a = none) :
    (start.scannedAs a).isImport = false := by
  unfold StartTag.language? at h
  split at h
  · cases h
  · rename_i hown
    have hattr : a.name.isIn metalSpace = false := by
      rw [Bool.eq_false_iff, Ne, ← QName.language?_eq_metal, hown]
      exact nofun
    show (_ && (a.name.isIn metalSpace || (start.name.isIn metalSpace && !a.rawName.toList.contains ':'))) =
      false
    rw [hattr, Bool.false_or]
    split at h
    · rename_i hcolon
      rw [hcolon, Bool.not_true, Bool.and_false, Bool.and_false]
    · have helement : start.name.isIn metalSpace = false := by
        rw [Bool.eq_false_iff, Ne, ← QName.language?_eq_metal, h]
        exact nofun
      rw [helement, Bool.false_and, Bool.and_false]

theorem isImport_of_language?_metal (h : start.language? a = some .metal) (hname : a.name.name = "import") :
    (start.scannedAs a).isImport = true := by
  show (a.name.name == "import" &&
    (a.name.isIn metalSpace || (start.name.isIn metalSpace && !a.rawName.toList.contains ':'))) = true
  rw [hname, beq_self_eq_true, Bool.true_and]
  unfold StartTag.language? at h
  split at h
  · rename_i hown
    rw [QName.language?_eq_metal.1 (hown.trans h), Bool.true_or]
  · split at h
    · cases h
    · rename_i hcolon
      rw [QName.language?_eq_metal.1 h, Bool.not_eq_true] at *
      rw [hcolon]
      simp

end Attributes

/-! ### The import directive of a tag -/

namespace DirectiveSet

variable {start : StartTag} {a : Attribute} {set set' : DirectiveSet}

/-- The templates that the directives of an element import. -/
def requests (set : DirectiveSet) (path : Option String) : List String :=
  (set.metal? .importMacros).toList.flatMap fun d => importRequests path d.argument

theorem add_tal_ok (h : set.add .tal a = .ok set') :
    (∃ kind, TalKind.parse? a.name.name = some kind) ∧ set'.metal = set.metal := by
  unfold add at h
  obtain ⟨text, -, h⟩ := bind_eq_ok.1 h
  dsimp only at h
  split at h
  · cases h
  · rename_i kind hkind
    split at h
    · cases h
    · cases h
      exact ⟨⟨kind, hkind⟩, rfl⟩

theorem add_metal_ok (h : set.add .metal a = .ok set') :
    ∃ kind text, MetalKind.parse? a.name.name = some kind ∧ argument a = .ok text ∧
      set.metal? kind = none ∧ set'.metal = set.metal ++ [⟨kind, text, a.location⟩] := by
  unfold add at h
  obtain ⟨text, ht, h⟩ := bind_eq_ok.1 h
  dsimp only at h
  split at h
  · cases h
  · rename_i kind hkind
    split at h
    · cases h
    · rename_i hnone
      cases h
      exact ⟨kind, text, hkind, ht, by simpa using hnone, rfl⟩

theorem argument_ok {text : String} (h : argument a = .ok text) :
    unescape (a.value.getD "") = .ok text := by
  unfold argument at h
  split at h
  · rename_i ht
    cases h
    exact ht
  · cases h

/-- With each attribute the requests grow by what the scan finds there. -/
theorem requests_add (path : Option String) (h : addAttribute start set a = .ok set') : ∃ targets,
    (start.scannedAs a).targets path = .ok targets ∧
      set'.requests path = set.requests path ++ targets := by
  have hsame (hi : (start.scannedAs a).isImport = false)
      (hm : set'.metal? .importMacros = set.metal? .importMacros) : ∃ targets,
      (start.scannedAs a).targets path = .ok targets ∧
        set'.requests path = set.requests path ++ targets :=
    ⟨[], targets_of_not_import hi, by rw [requests, hm, List.append_nil]; rfl⟩
  unfold addAttribute at h
  cases hl : start.language? a with
  | none =>
    rw [hl] at h
    cases h
    exact hsame (isImport_of_language?_none hl) rfl
  | some language =>
    rw [hl] at h
    have h := CompileProblem.located_ok h
    cases language with
    | tal =>
      obtain ⟨⟨kind, hkind⟩, hm⟩ := add_tal_ok h
      refine hsame (isImport_of_ne fun hname => ?_) (by rw [metal?, metal?, hm])
      rw [hname] at hkind
      cases hkind
    | metal =>
      obtain ⟨kind, text, hkind, htext, hnone, hm⟩ := add_metal_ok h
      by_cases hk : kind = .importMacros
      · subst hk
        have hi := isImport_of_language?_metal hl (MetalKind.parse?_eq_import.1 hkind)
        have hset : set'.metal? .importMacros = some ⟨.importMacros, text, a.location⟩ := by
          unfold metal? at hnone ⊢
          rw [hm, List.find?_append, hnone]
          rfl
        refine ⟨importRequests path text, targets_of_import hi (argument_ok htext), ?_⟩
        rw [requests, requests, hnone, hset]
        simp
      · refine hsame (isImport_of_ne fun hname => hk ?_) ?_
        · rw [hname] at hkind
          exact (Option.some.inj hkind).symm
        · rw [metal?, metal?, hm, List.find?_append, List.find?_cons_of_neg (by simpa using hk)]
          exact Option.or_none

end DirectiveSet

/-! ### The directives of a tree -/

/-- The templates that attributes import. -/
def importTargetsOf (path : Option String) (attributes : List ScannedAttribute) :
    Except TemplateFault (List String) :=
  List.flatten <$> attributes.mapM (ScannedAttribute.targets path)

section Targets

variable {path : Option String} {as bs : List ScannedAttribute} {ts us : List String}

theorem importTargetsOf_append (ha : importTargetsOf path as = .ok ts)
    (hb : importTargetsOf path bs = .ok us) : importTargetsOf path (as ++ bs) = .ok (ts ++ us) := by
  obtain ⟨tss, hts, rfl⟩ := map_eq_ok.1 ha
  obtain ⟨uss, hus, rfl⟩ := map_eq_ok.1 hb
  rw [importTargetsOf, List.mapM_append, hts, hus, ← List.flatten_append]
  rfl

theorem importTargetsOf_singleton {a : ScannedAttribute} (h : a.targets path = .ok ts) :
    importTargetsOf path [a] = .ok ts := by
  rw [importTargetsOf, List.mapM_cons, h]
  exact congrArg Except.ok (List.append_nil ts)

end Targets

namespace DirectiveSet

variable {start : StartTag} {set set' : DirectiveSet}

theorem requests_addAll (path : Option String) {attributes : List Attribute}
    (h : attributes.foldlM (addAttribute start) set = .ok set') : ∃ targets,
    importTargetsOf path (attributes.map start.scannedAs) = .ok targets ∧
      set'.requests path = set.requests path ++ targets := by
  induction attributes generalizing set with
  | nil =>
    cases h
    exact ⟨[], rfl, (List.append_nil _).symm⟩
  | cons a attributes ih =>
    rw [List.foldlM_cons] at h
    obtain ⟨next, hn, h⟩ := bind_eq_ok.1 h
    obtain ⟨here, hh, hset⟩ := requests_add path hn
    obtain ⟨others, ho, hset'⟩ := ih h
    refine ⟨here ++ others, ?_, by rw [hset', hset, List.append_assoc]⟩
    exact importTargetsOf_append (importTargetsOf_singleton hh) ho

theorem requests_ofTag (path : Option String) (h : ofTag start = .ok set) :
    importTargetsOf path start.scanned = .ok (set.requests path) := by
  obtain ⟨found, hf, rfl⟩ := ofTag_ok h
  obtain ⟨targets, ht, hfound⟩ := requests_addAll path hf
  rw [StartTag.scanned_eq, ht]
  exact congrArg Except.ok hfound.symm

end DirectiveSet

namespace MacroDirectives

variable (path : Option String)

/-- The templates that the directives of a tree import. -/
def requests (d : MacroDirectives) (path : Option String) : List String :=
  d.imports.flatMap fun directive => importRequests path directive.1

theorem requests_append (d e : MacroDirectives) :
    (d.append e).requests path = d.requests path ++ e.requests path :=
  List.flatMap_append

theorem requests_ofElement (set : DirectiveSet) (element : Element) :
    (ofElement set element).requests path = set.requests path := by
  show ((set.metal? .importMacros).toList.map fun d => (d.argument, d.location)).flatMap _ = _
  rw [List.flatMap_map]
  rfl

mutual

theorem requests_ofNode {directives : MacroDirectives} : ∀ node, ofNode node = .ok directives →
    importTargetsOf path (node.tags.flatMap StartTag.scanned) = .ok (directives.requests path)
  | .markup .., h => by
    rw [ofNode] at h
    cases h
    rw [Node.tags]
    rfl
  | .element start children closing, h => by
    rw [ofNode] at h
    obtain ⟨set, hset, h⟩ := bind_eq_ok.1 h
    obtain ⟨inside, hinside, h⟩ := bind_eq_ok.1 h
    cases h
    rw [Node.tags, List.flatMap_cons, requests_append, requests_ofElement]
    exact importTargetsOf_append (DirectiveSet.requests_ofTag path hset) (requests_ofNodes children hinside)

theorem requests_ofNodes {directives : MacroDirectives} : ∀ nodes, ofNodes nodes = .ok directives →
    importTargetsOf path ((Node.tagsAll nodes).flatMap StartTag.scanned) =
      .ok (directives.requests path)
  | [], h => by
    rw [ofNodes] at h
    cases h
    rw [Node.tagsAll]
    rfl
  | node :: nodes, h => by
    rw [ofNodes] at h
    obtain ⟨first, hfirst, h⟩ := bind_eq_ok.1 h
    obtain ⟨others, hothers, h⟩ := bind_eq_ok.1 h
    cases h
    rw [Node.tagsAll, List.flatMap_append, requests_append]
    exact importTargetsOf_append (requests_ofNode node hfirst) (requests_ofNodes nodes hothers)

end

end MacroDirectives

/-! ### Scan and tree -/

/-- Scan and builder are in step through the whole of a template. -/
def TemplateSource.InStep (source : TemplateSource) : Prop :=
  MarkupTemplate.InStep source.text source.path

variable {source : TemplateSource} {document : Document} {directives : MacroDirectives}

/-- The scan finds what the tree requests. -/
theorem importTargets_eq_requests (hs : source.InStep)
    (hd : Document.parse source.text source.path = .ok document)
    (hm : MacroDirectives.ofNodes document.nodes = .ok directives) :
    importTargets source = .ok (directives.requests source.path) := by
  have hscan := scanAttributes_of_inStep hs hd
  have htargets := MacroDirectives.requests_ofNodes source.path document.nodes hm
  rw [importTargets, hscan]
  exact htargets

end MarkupTemplate
