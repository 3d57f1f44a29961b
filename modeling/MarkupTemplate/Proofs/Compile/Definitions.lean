import MarkupTemplate.Proofs.Compile.Registration
import MarkupTemplate.Proofs.Compile.Traversal
import MarkupTemplate.Proofs.Value.Fields

/-!
# Definitions that are registered

A registry is sound if the names of its units, in order, mean definitions it has, and if with the element of a
definition it has the definitions of all macros below that element. Registering a template keeps that
(`registerDocument_sound`): its macros are listed along the tree, so the list has those below an element with
the element itself, and none of them is named before all of its imports are registered. The builder asks for
the macros of the tree only, so it never finds one missing.
-/

namespace MarkupTemplate

namespace Fields

/-- All fields are numbers below a bound. -/
def Below (n : Nat) (fields : Fields Nat) : Prop :=
  ∀ found ∈ fields, found.2 < n

theorem Below.insert {n id : Nat} {fields : Fields Nat} (h : fields.Below n) (hid : id < n) (name : String) :
    Below n (fields.insert name id) := by
  intro found hf
  rcases mem_insert hf with rfl | hf
  · exact hid
  · exact h found hf

theorem Below.mono {m n : Nat} {fields : Fields Nat} (h : fields.Below m) (hmn : m ≤ n) :
    Below n fields :=
  fun found hf => Nat.lt_of_lt_of_le (h found hf) hmn

end Fields

/-! ### Names -/

namespace MacroNames

/-- All names mean macros below a bound. -/
def Below (n : Nat) (names : MacroNames) : Prop :=
  ∀ entry ∈ names, entry.2.Below n

variable {m n : Nat} {names : MacroNames}

theorem Below.mono (h : names.Below m) (hmn : m ≤ n) : names.Below n :=
  fun entry he => (h entry he).mono hmn

theorem Below.under (h : names.Below n) (label : String) : (names.under label).Below n := by
  unfold MacroNames.under
  cases hl : names.get? label with
  | none => exact fun found hf => by cases hf
  | some fields => exact h _ (Fields.mem_of_get? hl)

theorem Below.extend (h : names.Below n) {more : Fields Nat} (hm : more.Below n) (label : String) :
    (names.extend label more).Below n := by
  have hfold : ∀ (more known : Fields Nat), more.Below n → known.Below n →
      (more.foldl (fun known entry => known.insert entry.1 entry.2) known).Below n := by
    intro more
    induction more with
    | nil => exact fun _ _ hk => hk
    | cons found more ih =>
      intro known hm hk
      exact ih _ (fun f hf => hm f (by simp [hf])) (hk.insert (hm found (by simp)) _)
  intro entry he
  rcases Fields.mem_insert he with rfl | he
  · exact hfold more _ hm (h.under label)
  · exact h entry he

/-- The aliases ascend, and so do the names under each alias. -/
structure IsSorted (names : MacroNames) : Prop where
  labels : Fields.IsSorted names
  places : ∀ entry ∈ names, Fields.IsSorted entry.2

theorem IsSorted.nil : IsSorted [] :=
  ⟨List.Pairwise.nil, fun _ he => by cases he⟩

theorem IsSorted.under (h : names.IsSorted) (label : String) : Fields.IsSorted (names.under label) := by
  unfold MacroNames.under
  cases hl : names.get? label with
  | none => exact List.Pairwise.nil
  | some fields => exact h.places _ (Fields.mem_of_get? hl)

theorem IsSorted.extend (h : names.IsSorted) (label : String) (more : Fields Nat) :
    (names.extend label more).IsSorted := by
  refine ⟨h.labels.insert .., fun entry he => ?_⟩
  rcases Fields.mem_insert he with rfl | he
  · exact (h.under label).insertAll more
  · exact h.places entry he

theorem Below.resolveIn? (h : names.Below n) {p : Path} {location : Location} {id : Nat}
    (hid : MacroRegistry.resolveIn? names p location = .ok (some id)) : id < n := by
  unfold MacroRegistry.resolveIn? at hid
  split at hid
  · cases hid
  · split at hid
    · next hfound =>
      cases hid
      exact h.under _ _ (Fields.mem_of_get? hfound)
    · split at hid <;> cases hid

end MacroNames

/-! ### Macros of a tree -/

/-- The directives of a tag define a macro. -/
def StartTag.DefinesMacro (start : StartTag) : Prop :=
  ∃ set, DirectiveSet.ofTag start = .ok set ∧ (set.metal? .defineMacro).isSome

namespace MacroDirectives

mutual

theorem mem_macros_of_mem_starts {start : StartTag} (hd : start.DefinesMacro) :
    ∀ (n : Node) {directives : MacroDirectives}, ofNode n = .ok directives → start ∈ n.starts →
      ∃ m ∈ directives.macros, m.2.start = start
  | .markup .., _, _, hs => by cases hs
  | .element tag children closing, _, h, hs => by
    rw [ofNode] at h
    obtain ⟨set, hset, h⟩ := bind_eq_ok.1 h
    obtain ⟨inside, hinside, h⟩ := bind_eq_ok.1 h
    cases h
    rcases List.mem_cons.1 hs with rfl | hs
    · obtain ⟨set', hset', hd⟩ := hd
      rw [hset] at hset'
      cases hset'
      obtain ⟨d, hd⟩ := Option.isSome_iff_exists.1 hd
      exact ⟨(Text.trimString d.argument, ⟨start, children, closing⟩), by simp [append, ofElement, hd], rfl⟩
    · obtain ⟨m, hm, hms⟩ := mem_macros_of_mem_startsOf hd children hinside hs
      exact ⟨m, List.mem_append_right _ hm, hms⟩

/-- A tree lists each of its macros. -/
theorem mem_macros_of_mem_startsOf {start : StartTag} (hd : start.DefinesMacro) :
    ∀ (ns : List Node) {directives : MacroDirectives}, ofNodes ns = .ok directives →
      start ∈ Node.startsOf ns → ∃ m ∈ directives.macros, m.2.start = start
  | [], _, _, hs => by cases hs
  | n :: ns, _, h, hs => by
    rw [ofNodes] at h
    obtain ⟨first, hf, h⟩ := bind_eq_ok.1 h
    obtain ⟨others, ho, h⟩ := bind_eq_ok.1 h
    cases h
    rcases List.mem_append.1 hs with hs | hs
    · obtain ⟨m, hm, hms⟩ := mem_macros_of_mem_starts hd n hf hs
      exact ⟨m, List.mem_append_left _ hm, hms⟩
    · obtain ⟨m, hm, hms⟩ := mem_macros_of_mem_startsOf hd ns ho hs
      exact ⟨m, List.mem_append_right _ hm, hms⟩

end

mutual

theorem elements_of_mem_macros : ∀ (n : Node) {directives : MacroDirectives},
    ofNode n = .ok directives → ∀ m ∈ directives.macros, ∀ e ∈ m.2 :: Node.elementsOf m.2.children,
      e ∈ n.elements
  | .markup .., _, h => by
    cases h
    intro m hm
    cases hm
  | .element tag children closing, _, h => by
    rw [ofNode] at h
    obtain ⟨set, -, h⟩ := bind_eq_ok.1 h
    obtain ⟨inside, hinside, h⟩ := bind_eq_ok.1 h
    cases h
    intro m hm e he
    rcases List.mem_append.1 hm with hm | hm
    · obtain ⟨d, -, rfl⟩ := List.mem_map.1 hm
      exact he
    · exact List.mem_cons_of_mem _ (elementsOf_of_mem_macros children hinside m hm e he)

/-- The elements of a macro that a tree lists are elements of the tree. -/
theorem elementsOf_of_mem_macros : ∀ (ns : List Node) {directives : MacroDirectives},
    ofNodes ns = .ok directives → ∀ m ∈ directives.macros,
      ∀ e ∈ m.2 :: Node.elementsOf m.2.children, e ∈ Node.elementsOf ns
  | [], _, h => by
    cases h
    intro m hm
    cases hm
  | n :: ns, _, h => by
    rw [ofNodes] at h
    obtain ⟨first, hf, h⟩ := bind_eq_ok.1 h
    obtain ⟨others, ho, h⟩ := bind_eq_ok.1 h
    cases h
    intro m hm e he
    rcases List.mem_append.1 hm with hm | hm
    · exact List.mem_append_left _ (elements_of_mem_macros n hf m hm e he)
    · exact List.mem_append_right _ (elementsOf_of_mem_macros ns ho m hm e he)

end

/-- The tags of a macro that a tree lists are tags of the tree. -/
theorem startsOf_of_mem_macros {ns : List Node} {directives : MacroDirectives} (h : ofNodes ns = .ok directives)
    {m : String × Element} (hm : m ∈ directives.macros) :
    ∀ start ∈ m.2.start :: Node.startsOf m.2.children, start ∈ Node.startsOf ns := by
  rw [Node.startsOf_eq_map, ← List.map_cons, Node.startsOf_eq_map]
  exact List.forall_mem_map.2 fun e he => List.mem_map_of_mem (elementsOf_of_mem_macros ns h m hm e he)

mutual

theorem ofNode_gives {E : TemplateFault → Prop} (hE : ∀ problem location, E (.compile problem location)) :
    ∀ n : Node, Gives (fun _ => True) E (ofNode n)
  | .markup .. => .ok trivial
  | .element start children closing => by
    rw [ofNode]
    exact (DirectiveSet.ofTag_gives hE start).bind fun _ _ _ =>
      (ofNodes_gives hE children).bind fun _ _ _ => .ok trivial

theorem ofNodes_gives {E : TemplateFault → Prop} (hE : ∀ problem location, E (.compile problem location)) :
    ∀ ns : List Node, Gives (fun _ => True) E (ofNodes ns)
  | [] => .ok trivial
  | n :: ns => by
    rw [ofNodes]
    exact (ofNode_gives hE n).bind fun _ _ _ => (ofNodes_gives hE ns).bind fun _ _ _ => .ok trivial

end

end MacroDirectives

/-! ### Registries -/

/-- Any fault but that of a macro that was not registered. -/
def TemplateFault.IsOrdinary (fault : TemplateFault) : Prop :=
  ∀ location, fault ≠ .macros .unregistered location

namespace TemplateFault.IsOrdinary

theorem macros {problem : MacroProblem} (h : problem ≠ .unregistered) (location : Location) :
    IsOrdinary (.macros problem location) := by
  intro other heq
  cases heq
  exact h rfl

theorem compile (problem : CompileProblem) (location : Option Location) :
    IsOrdinary (.compile problem location) := by
  intro other heq
  cases heq

theorem markup (fault : MarkupFault) : IsOrdinary (.markup fault) := by
  intro other heq
  cases heq

theorem resource (fault : ResourceFault) : IsOrdinary (.resource fault) := by
  intro other heq
  cases heq

end TemplateFault.IsOrdinary

namespace MacroRegistry

/-- The macro that a tag defines in a unit is registered. -/
def Registers (r : MacroRegistry) (unit : Nat) (start : StartTag) : Prop :=
  start.DefinesMacro → (r.definitionAt? unit start.location.offset).isSome

/-- Names mean definitions, and macros below a definition are registered with it. -/
structure IsSound (r : MacroRegistry) : Prop where
  names : ∀ u ∈ r.units, u.names.Below r.definitions.length
  sorted : ∀ u ∈ r.units, u.names.IsSorted
  location : ∀ d ∈ r.definitions, d.location = d.element.start.location
  nested : ∀ d ∈ r.definitions, ∀ start ∈ d.element.start :: Node.startsOf d.element.children,
    r.Registers d.unit start

variable {r r' : MacroRegistry} {unit offset id : Nat}

theorem definitionAt?_isSome : (r.definitionAt? unit offset).isSome ↔
    ∃ d ∈ r.definitions, d.unit = unit ∧ d.location.offset = offset := by
  simp [definitionAt?, List.findIdx?_isSome]

theorem definitionAt?_lt (h : r.definitionAt? unit offset = some id) : id < r.definitions.length :=
  (List.findIdx?_eq_some_iff_getElem.1 h).1

theorem Registers.mono (hd : r.definitions <+: r'.definitions) {start : StartTag}
    (h : r.Registers unit start) : r'.Registers unit start := by
  intro hs
  obtain ⟨d, hm, hdu⟩ := definitionAt?_isSome.1 (h hs)
  exact definitionAt?_isSome.2 ⟨d, hd.subset hm, hdu⟩

namespace IsSound

theorem empty : IsSound empty where
  names _ h := by cases h
  sorted _ h := by cases h
  location _ h := by cases h
  nested _ h := by cases h

theorem opened (h : r.IsSound) (path : Option String) : (r.opened path).IsSound where
  names u hu := by
    rcases List.mem_append.1 hu with hu | hu
    · exact h.names u hu
    · rw [List.mem_singleton.1 hu]
      intro entry he
      cases he
  sorted u hu := by
    rcases List.mem_append.1 hu with hu | hu
    · exact h.sorted u hu
    · rw [List.mem_singleton.1 hu]
      exact .nil
  location := h.location
  nested := h.nested

theorem namesOf (h : r.IsSound) (unit : Nat) : (r.names unit).Below r.definitions.length := by
  unfold MacroRegistry.names
  cases hu : r.units[unit]? with
  | none =>
    intro entry he
    cases he
  | some u => exact h.names u (List.mem_of_getElem? hu)

theorem sorted_names (h : r.IsSound) (unit : Nat) : (r.names unit).IsSorted := by
  unfold MacroRegistry.names
  cases hu : r.units[unit]? with
  | none => exact .nil
  | some u => exact h.sorted u (List.mem_of_getElem? hu)

theorem resolve?_lt (h : r.IsSound) {e : Expression} {location : Location}
    (hid : r.resolve? unit e location = .ok (some id)) : id < r.definitions.length := by
  unfold resolve? at hid
  split at hid
  · next u _ hu => exact (h.names u (List.mem_of_getElem? hu)).resolveIn? hid
  · cases hid

end IsSound

/-! ### Registering -/

/-- What an importer does to a sound registry. -/
def KeepsSound (load : Importer) : Prop :=
  ∀ target location r, r.IsSound →
    Gives (fun s => s.1.IsSound ∧ r.definitions <+: s.1.definitions) TemplateFault.IsOrdinary
      (load target location r)

/-- A registration of a template whose registry is sound and whose names mean definitions. -/
structure Registration.IsSound (before : MacroRegistry) (state : Registration) : Prop where
  registry : state.1.IsSound
  names : state.2.Below state.1.definitions.length
  sorted : state.2.IsSorted
  definitions : before.definitions <+: state.1.definitions

variable {load : Importer}

theorem registerEntry_sound (hload : KeepsSound load) (path : Option String) {before : MacroRegistry}
    {state : Registration} (hs : Registration.IsSound before state)
    (entry : Directive.ImportEntry × Location) :
    Gives (Registration.IsSound before) TemplateFault.IsOrdinary (registerEntry load path state entry) := by
  unfold registerEntry importEntry
  refine (hload _ _ _ hs.registry).bind fun ⟨next, unit⟩ _ ⟨hn, hd⟩ => .ok ?_
  constructor
  · exact hn
  · exact (hs.names.mono hd.length_le).extend ((hn.namesOf unit).under "") _
  · exact hs.sorted.extend ..
  · exact hs.definitions.trans hd

/-- A macro with its element, as it is registered. -/
def definitionOf (unit : Nat) (m : String × Element) : MacroDefinition :=
  ⟨m.1, unit, m.2, m.2.start.location⟩

theorem defineMacros_gives (unit : Nat) (macros : List (String × Element)) (r : MacroRegistry)
    {own : Fields Nat} (ho : own.Below r.definitions.length) :
    Gives (fun s => s.1 = ⟨r.units, r.definitions ++ macros.map (definitionOf unit)⟩ ∧
        s.2.Below s.1.definitions.length) TemplateFault.IsOrdinary
      (macros.foldlM (defineMacro unit) (r, own)) := by
  induction macros generalizing r own with
  | nil => exact .ok ⟨by simp, ho⟩
  | cons m macros ih =>
    rw [List.foldlM_cons]
    unfold defineMacro
    dsimp only
    split
    · exact .error (.macros (by simp) _)
    · split
      · exact .error (.macros (by simp) _)
      · have hlen : r.definitions.length ≤ (r.definitions ++ [definitionOf unit m]).length := by simp
        have hid : r.definitions.length < (r.definitions ++ [definitionOf unit m]).length := by simp
        have hnext := ih ⟨r.units, r.definitions ++ [definitionOf unit m]⟩ ((ho.mono hlen).insert hid m.1)
        refine Gives.imp hnext fun s _ hs => ?_
        simpa using hs

theorem registers_of_definitions {nodes : List Node} {directives : MacroDirectives}
    (hd : MacroDirectives.ofNodes nodes = .ok directives)
    (hr : ∀ m ∈ directives.macros, definitionOf unit m ∈ r.definitions) :
    ∀ start ∈ Node.startsOf nodes, r.Registers unit start := by
  intro start hstart hdef
  obtain ⟨m, hm, hms⟩ := MacroDirectives.mem_macros_of_mem_startsOf hdef _ hd hstart
  exact definitionAt?_isSome.2 ⟨definitionOf unit m, hr m hm, rfl, by rw [← hms]; rfl⟩

theorem nameMacros_sound {document : Document} {directives : MacroDirectives} {path : Option String}
    {before : MacroRegistry} {state : Registration}
    (hd : MacroDirectives.ofNodes document.nodes = .ok directives)
    (hs : Registration.IsSound before state) :
    Gives (fun s => s.1.IsSound ∧ before.definitions <+: s.1.definitions ∧ s.2 = unit ∧
        ∀ start ∈ Node.startsOf document.nodes, s.1.Registers unit start) TemplateFault.IsOrdinary
      (nameMacros unit path directives state) := by
  have hown : Fields.Below state.1.definitions.length [] := by
    intro found hf
    cases hf
  refine (defineMacros_gives unit directives.macros state.1 hown).bind fun ⟨last, own⟩ _ ⟨hl, ho⟩ => .ok ?_
  dsimp only at hl ho
  have hold : state.1.definitions <+: last.definitions := by
    rw [hl]
    exact List.prefix_append ..
  have hnew : ∀ m ∈ directives.macros, definitionOf unit m ∈ last.definitions := by
    intro m hm
    rw [hl]
    exact List.mem_append_right _ (List.mem_map_of_mem hm)
  refine ⟨⟨?_, ?_, ?_, ?_⟩, hs.definitions.trans hold, rfl, registers_of_definitions hd hnew⟩
  · intro u hu
    rcases List.mem_or_eq_of_mem_set hu with hu | rfl
    · rw [hl] at hu
      exact (hs.registry.names u hu).mono hold.length_le
    · exact (hs.names.mono hold.length_le).extend ho ""
  · intro u hu
    rcases List.mem_or_eq_of_mem_set hu with hu | rfl
    · rw [hl] at hu
      exact hs.registry.sorted u hu
    · exact hs.sorted.extend ..
  · intro d hdm
    rw [hl] at hdm
    rcases List.mem_append.1 hdm with hdm | hdm
    · exact hs.registry.location d hdm
    · obtain ⟨m, -, rfl⟩ := List.mem_map.1 hdm
      rfl
  · intro d hdm start hstart
    rw [hl] at hdm
    rcases List.mem_append.1 hdm with hdm | hdm
    · exact (hs.registry.nested d hdm start hstart).mono hold
    · obtain ⟨m, hm, rfl⟩ := List.mem_map.1 hdm
      have hmem := MacroDirectives.startsOf_of_mem_macros hd hm start hstart
      exact registers_of_definitions hd hnew start hmem

theorem registerDocument_sound (hload : KeepsSound load) (document : Document) (path : Option String)
    (h : r.IsSound) :
    Gives (fun s => s.1.IsSound ∧ r.definitions <+: s.1.definitions ∧ s.2 = r.units.length ∧
        ∀ start ∈ Node.startsOf document.nodes, s.1.Registers r.units.length start)
      TemplateFault.IsOrdinary (registerDocument load document path r) := by
  rw [registerDocument_eq]
  refine (MacroDirectives.ofNodes_gives .compile _).bind fun directives hd _ => ?_
  have hbegin : Registration.IsSound r (r.begin path) := by
    refine ⟨h.opened path, ?_, MacroNames.IsSorted.nil.extend "" [], List.prefix_refl _⟩
    intro entry he found hf
    rw [List.mem_singleton.1 he] at hf
    cases hf
  refine (Gives.foldlM (fun entry _ state hs => ?_) hbegin).bind fun state _ hs => nameMacros_sound hd hs
  exact registerEntry_sound hload path hs entry

theorem importUnit_sound (provider : ResourceProvider) : ∀ depth chain,
    KeepsSound (importUnit provider depth chain)
  | 0, _, _, _, _, _ => .error (.macros (by simp) _)
  | depth + 1, chain, target, location, r, h => by
    unfold importUnit
    split
    · exact .error (.macros (by simp) _)
    · split
      · exact .ok ⟨h, List.prefix_refl _⟩
      · have htext : Gives (fun _ => True) TemplateFault.IsOrdinary (provider.template target) := by
          unfold ResourceProvider.template
          split
          · exact .ok trivial
          · exact .error (.resource _)
        refine htext.bind fun text _ _ => ?_
        split
        · exact .error (.markup _)
        · next document _ =>
          exact (registerDocument_sound (importUnit_sound provider depth _) document _ h).imp
            fun s _ hs => ⟨hs.1, hs.2.1⟩

/-- The registry of a template is sound and has the macros of the template itself, which is its unit 0. -/
theorem ofMain_sound (provider : ResourceProvider) (document : Document) (path : Option String) :
    Gives (fun r => r.IsSound ∧ ∀ start ∈ Node.startsOf document.nodes, r.Registers 0 start)
      TemplateFault.IsOrdinary (ofMain provider document path) := by
  unfold ofMain
  exact (registerDocument_sound (importUnit_sound provider _ _) document path .empty).bind
    fun s _ hs => .ok ⟨hs.1, hs.2.2.2⟩

end MacroRegistry

/-- The names that a compiled program gives its macros are in order. -/
theorem Program.isSorted_namespaces {provider : ResourceProvider} {mode : TemplateMode}
    {source : TemplateSource} {program : Program} (h : compile provider mode source = .ok program) :
    MacroNames.IsSorted program.namespaces := by
  rcases compile_cases h with ⟨-, rfl⟩ | ⟨-, document, -, h⟩
  · exact .nil
  · obtain ⟨r, -, hr, -, -, -, hnames⟩ := ofDocument_ok h
    rw [hnames]
    exact ((MacroRegistry.ofMain_sound provider document source.path).of_ok hr).1.sorted_names 0

end MarkupTemplate
