import MarkupTemplate.Proofs.Import.Requests

/-!
# What registering a template does

A template is registered in three parts: a unit is opened under its path, its import entries are registered
one after another (`registerEntry`), and its own macros are named. Only the entries ask an importer for
anything, so importers that agree on them register alike (`registerDocument_congr`); and only they add paths,
behind those that are there (`registerDocument_ok`, `importUnit_extends`).
-/

namespace MarkupTemplate

/-- The import entries of a tree, each with the place of its directive. -/
def MacroDirectives.entries (d : MacroDirectives) : List (Directive.ImportEntry × Location) :=
  d.imports.flatMap fun directive => (Directive.imports directive.1).map (·, directive.2)

theorem MacroDirectives.requests_eq (d : MacroDirectives) (path : Option String) :
    d.requests path = d.entries.map fun entry => resolveUri entry.1.path path := by
  simp only [requests, entries, importRequests, List.map_flatMap, List.map_map, Function.comp_def]

namespace MacroRegistry

variable {load load' : Importer} {path : Option String} {r r' : MacroRegistry} {unit : Nat}
  {document : Document} {P : ResourceProvider}

/-- The paths of the units. -/
def paths (r : MacroRegistry) : List (Option String) :=
  r.units.map TemplateUnit.path

theorem unitAt?_isSome {target : String} : (r.unitAt? target).isSome ↔ some target ∈ r.paths := by
  rw [unitAt?, List.findIdx?_isSome, List.any_eq_true, paths, List.mem_map]
  simp only [beq_iff_eq]

theorem not_mem_paths {target : String} (h : r.unitAt? target = none) : some target ∉ r.paths := by
  rw [← unitAt?_isSome, h]
  exact nofun

/-- The registry with a unit for one more template, of which no macros are known yet. -/
def opened (r : MacroRegistry) (path : Option String) : MacroRegistry :=
  ⟨r.units ++ [⟨path, []⟩], r.definitions⟩

theorem paths_opened (r : MacroRegistry) (path : Option String) :
    (r.opened path).paths = r.paths ++ [path] := by
  simp only [paths, opened, List.map_append, List.map_cons, List.map_nil]

/-! ### Import entries -/

/-- A registry and the names that the unit being registered sees. -/
abbrev Registration := MacroRegistry × MacroNames

/-- The registration after one more entry. -/
def registerEntry (load : Importer) (path : Option String) (state : Registration)
    (entry : Directive.ImportEntry × Location) : Except TemplateFault Registration :=
  importEntry load path entry.2 state entry.1

/-- The registration of a template under `path`, before its imports. -/
def begin (r : MacroRegistry) (path : Option String) : Registration :=
  (r.opened path, [("", [])])

theorem foldlM_importAll (directives : MacroDirectives) (state : Registration) :
    directives.imports.foldlM (importAll load path) state =
      directives.entries.foldlM (registerEntry load path) state := by
  unfold MacroDirectives.entries
  induction directives.imports generalizing state with
  | nil => rfl
  | cons directive imports ih =>
    rw [List.foldlM_cons, List.flatMap_cons, List.foldlM_append, List.foldlM_map]
    exact bind_congr ih

theorem registerEntry_ok {state state' : Registration} {entry : Directive.ImportEntry × Location}
    (h : registerEntry load path state entry = .ok state') :
    ∃ unit, load (resolveUri entry.1.path path) entry.2 state.1 = .ok (state'.1, unit) := by
  obtain ⟨⟨next, unit⟩, hn, h⟩ := bind_eq_ok.1 h
  cases h
  exact ⟨unit, hn⟩

/-! ### Documents -/

/-- What is left to do once a template's imports are registered. -/
def nameMacros (unit : Nat) (path : Option String) (directives : MacroDirectives) (state : Registration) :
    Except TemplateFault (MacroRegistry × Nat) := do
  let (r, own) ← directives.macros.foldlM (defineMacro unit) (state.1, [])
  return (⟨r.units.set unit ⟨path, state.2.extend "" own⟩, r.definitions⟩, unit)

theorem registerDocument_eq (load : Importer) (document : Document) (path : Option String)
    (r : MacroRegistry) :
    registerDocument load document path r = (do
      let directives ← MacroDirectives.ofNodes document.nodes
      let state ← directives.entries.foldlM (registerEntry load path) (r.begin path)
      nameMacros r.units.length path directives state) := by
  unfold registerDocument
  refine bind_congr fun directives => ?_
  rw [foldlM_importAll]
  rfl

theorem registerDocument_congr
    (h : ∀ directives, MacroDirectives.ofNodes document.nodes = .ok directives →
      directives.entries.foldlM (registerEntry load path) (r.begin path) =
        directives.entries.foldlM (registerEntry load' path) (r.begin path)) :
    registerDocument load document path r = registerDocument load' document path r := by
  rw [registerDocument_eq, registerDocument_eq]
  cases hd : MacroDirectives.ofNodes document.nodes with
  | error fault => rfl
  | ok directives =>
    show directives.entries.foldlM (registerEntry load path) (r.begin path) >>= _ =
      directives.entries.foldlM (registerEntry load' path) (r.begin path) >>= _
    rw [h directives hd]

/-! ### The paths that are registered -/

/-- An importer keeps the units that are there. -/
def Extends (load : Importer) : Prop :=
  ∀ {target location r r' unit}, load target location r = .ok (r', unit) → r.paths <+: r'.paths

theorem registerEntries_extends (hload : Extends load)
    {entries : List (Directive.ImportEntry × Location)} {state state' : Registration}
    (h : entries.foldlM (registerEntry load path) state = .ok state') : state.1.paths <+: state'.1.paths :=
  foldlM_keeps (P := fun s : Registration => state.1.paths <+: s.1.paths)
    (fun _ _ _ _ hs he => hs.trans (hload (registerEntry_ok he).choose_spec)) (List.prefix_refl _) h

theorem defineMacro_units {unit : Nat} {state state' : MacroRegistry × Fields Nat}
    {definition : String × Element} (h : defineMacro unit state definition = .ok state') :
    state'.1.units = state.1.units := by
  unfold defineMacro at h
  dsimp only at h
  split at h
  · cases h
  · split at h
    · cases h
    · cases h
      rfl

/-- The macros of a template change no path: its unit is kept under the path it was opened with. -/
theorem nameMacros_paths {directives : MacroDirectives} {state : Registration}
    (hb : (r.begin path).1.paths <+: state.1.paths)
    (h : nameMacros r.units.length path directives state = .ok (r', unit)) :
    r'.paths = state.1.paths := by
  obtain ⟨⟨last, own⟩, hm, h⟩ := bind_eq_ok.1 h
  cases h
  have hunits : last.units = state.1.units :=
    foldlM_keeps (P := fun s : MacroRegistry × Fields Nat => s.1.units = state.1.units)
      (fun _ _ _ _ hs hd => (defineMacro_units hd).trans hs) rfl hm
  obtain ⟨more, hmore⟩ := hb
  rw [begin, paths_opened] at hmore
  have hlen : r.units.length = r.paths.length := (List.length_map _).symm
  show (last.units.set r.units.length _).map TemplateUnit.path = _
  rw [hunits, List.map_set, hlen]
  show state.1.paths.set r.paths.length path = state.1.paths
  rw [← hmore, List.append_assoc, List.set_append, if_neg (Nat.lt_irrefl _), Nat.sub_self]
  rfl

theorem registerDocument_ok (hload : Extends load)
    (h : registerDocument load document path r = .ok (r', unit)) :
    ∃ directives state, MacroDirectives.ofNodes document.nodes = .ok directives ∧
      directives.entries.foldlM (registerEntry load path) (r.begin path) = .ok state ∧
      r'.paths = state.1.paths := by
  rw [registerDocument_eq] at h
  obtain ⟨directives, hd, h⟩ := bind_eq_ok.1 h
  obtain ⟨state, hs, h⟩ := bind_eq_ok.1 h
  exact ⟨directives, state, hd, hs, nameMacros_paths (registerEntries_extends hload hs) h⟩

theorem registerDocument_extends (hload : Extends load)
    (h : registerDocument load document path r = .ok (r', unit)) : r.paths <+: r'.paths := by
  obtain ⟨directives, state, -, hs, hr⟩ := registerDocument_ok hload h
  rw [hr]
  refine List.IsPrefix.trans ?_ (registerEntries_extends hload hs)
  rw [begin, paths_opened]
  exact List.prefix_append ..

/-- A template that is known, or one that is read and registered. -/
theorem importUnit_ok {depth : Nat} {chain : List String} {target : String} {location : Location}
    (h : importUnit P (depth + 1) chain target location r = .ok (r', unit)) :
    some target ∈ r.paths ∧ r' = r ∨
      some target ∉ r.paths ∧ ∃ text document, P.template target = .ok text ∧
        Document.parse text (some target) = .ok document ∧
        registerDocument (importUnit P depth (target :: chain)) document (some target) r =
          .ok (r', unit) := by
  unfold importUnit at h
  split at h
  · cases h
  · split at h
    · rename_i known hknown
      cases h
      exact .inl ⟨unitAt?_isSome.1 (by rw [hknown]; rfl), rfl⟩
    · rename_i hnone
      obtain ⟨text, ht, h⟩ := bind_eq_ok.1 h
      split at h
      · cases h
      · rename_i document hd
        exact .inr ⟨not_mem_paths hnone, text, document, ht, hd, h⟩

theorem importUnit_extends : ∀ depth chain, Extends (importUnit P depth chain)
  | 0, _, _, _, _, _, _, h => by cases h
  | depth + 1, _, _, _, _, _, _, h => by
    obtain ⟨-, rfl⟩ | ⟨-, _, _, -, -, h⟩ := importUnit_ok h
    · exact List.prefix_refl _
    · exact registerDocument_extends (importUnit_extends depth _) h

end MacroRegistry

end MarkupTemplate
