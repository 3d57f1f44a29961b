import MarkupTemplate.Proofs.Compile.Definitions

/-!
# What the names of a unit mean

A unit sees its own macros and those that its imports export, under their aliases; of one name it sees that
of the later import, and its own over all (`MacroRegistry.Sees`). While other templates are registered,
nothing is changed but templates that are under way (`Keeps`), so what a unit sees when it is done is what it
sees in the end (`Sees.keep`).
-/

namespace MarkupTemplate

theorem Fields.get?_insertAll {α : Type} {more known : Fields α} (h : more.IsSorted) (name : String) :
    Fields.get? (more.foldl (fun known entry => known.insert entry.1 entry.2) known) name =
      (more.get? name).or (known.get? name) := by
  induction more generalizing known with
  | nil => rfl
  | cons head rest ih =>
    obtain ⟨key, a⟩ := head
    obtain ⟨hfirst, hrest⟩ := List.pairwise_cons.1 h
    rw [List.foldl_cons, ih hrest, get?_insert]
    by_cases hk : name = key
    · subst hk
      have hnone : Fields.get? rest name = none := by
        cases hr : Fields.get? rest name with
        | none => rfl
        | some b => exact absurd (hfirst _ (mem_of_get? hr)) (String.lt_irrefl _)
      rw [hnone, if_pos rfl, Fields.get?, List.lookup_cons_self]
      rfl
    · have hb : (name == key) = false := by simpa using hk
      have hget : Fields.get? ((key, a) :: rest) name = Fields.get? rest name := by
        rw [Fields.get?, List.lookup_cons, hb]
        rfl
      rw [if_neg hk, hget]

namespace MacroNames

variable {names : MacroNames} {label other name : String} {more : Fields Nat}

theorem get?_under_extend (h : more.IsSorted) : ((names.extend label more).under other).get? name =
    if other = label then (more.get? name).or ((names.under other).get? name)
    else (names.under other).get? name := by
  unfold MacroNames.extend
  rw [under, Fields.get?_insert]
  split
  · next heq => rw [heq, Option.getD_some, Fields.get?_insertAll h]
  · rfl

theorem has_extend : (names.extend label more).has other ↔ other = label ∨ names.has other := by
  unfold MacroNames.extend
  rw [Fields.has, Fields.get?_insert]
  split
  · next heq => simp [heq]
  · next hne => simp [hne, Fields.has]

end MacroNames

namespace MacroRegistry

/-- A unit's own macro of a name. -/
def own? (r : MacroRegistry) (unit : Nat) (name : String) : Option Nat :=
  r.definitions.findIdx? fun d => d.unit == unit && d.name == name

/-- What the template at a path exports: the names that its unit has under the empty alias. -/
def exports (r : MacroRegistry) (target : String) : Fields Nat :=
  ((r.unitAt? target).map fun unit => (r.names unit).under "").getD []

/-- What a name means by the last of some imports that have the alias and export the name. -/
def imported? (r : MacroRegistry) (path : Option String) (entries : List Directive.ImportEntry)
    (label name : String) : Option Nat :=
  entries.reverse.findSome? fun entry =>
    if entry.label = label then (r.exports (resolveUri entry.path path)).get? name else none

/-- The names of a unit mean what its macros and its import entries make them mean. -/
structure Sees (r : MacroRegistry) (unit : Nat) (path : Option String)
    (entries : List Directive.ImportEntry) (names : MacroNames) : Prop where
  own : ∀ name, (names.under "").get? name = (r.own? unit name).or (r.imported? path entries "" name)
  aliased : ∀ label ≠ "", ∀ name, (names.under label).get? name = r.imported? path entries label name
  labels : ∀ label, names.has label ↔ label = "" ∨ ∃ entry ∈ entries, entry.label = label

variable {r r' s : MacroRegistry} {path : Option String} {entries : List Directive.ImportEntry}
  {label name target : String} {unit : Nat} {active : List (Option String)} {u : TemplateUnit}

theorem imported?_append (entry : Directive.ImportEntry) :
    r.imported? path (entries ++ [entry]) label name =
      (if entry.label = label then (r.exports (resolveUri entry.path path)).get? name else none).or
        (r.imported? path entries label name) := by
  rw [imported?, List.reverse_append, List.reverse_singleton, List.findSome?_append, imported?]
  simp

theorem imported?_congr
    (h : ∀ entry ∈ entries, r'.exports (resolveUri entry.path path) = r.exports (resolveUri entry.path path)) :
    r'.imported? path entries label name = r.imported? path entries label name := by
  induction entries using List.reverseRecOn with
  | nil => rfl
  | append_singleton entries entry ih =>
    rw [imported?_append, imported?_append, ih fun e he => h e (by simp [he]), h entry (by simp)]

/-! ### Units by their paths -/

theorem unitAt?_eq : r.unitAt? target = r.paths.findIdx? (· == some target) := by
  rw [paths, List.findIdx?_map]
  rfl

theorem path_of_unitAt? (h : r.unitAt? target = some unit) :
    ∃ u : TemplateUnit, r.units[unit]? = some u ∧ u.path = some target := by
  obtain ⟨hlt, hp, -⟩ := List.findIdx?_eq_some_iff_getElem.1 h
  exact ⟨r.units[unit], List.getElem?_eq_getElem hlt, by simpa using hp⟩

theorem mem_paths (h : r.units[unit]? = some u) : u.path ∈ r.paths :=
  List.mem_map_of_mem (List.mem_of_getElem? h)

theorem exists_unit {a : Option String} (h : a ∈ r.paths) :
    ∃ (unit : Nat) (u : TemplateUnit), r.units[unit]? = some u ∧ u.path = a := by
  obtain ⟨u, hu, rfl⟩ := List.mem_map.1 h
  obtain ⟨unit, hunit⟩ := List.getElem?_of_mem hu
  exact ⟨unit, u, hunit, rfl⟩

theorem getElem?_paths (h : r.units[unit]? = some u) : r.paths[unit]? = some u.path := by
  rw [paths, List.getElem?_map, h]
  rfl

/-- Where no path is met twice, the unit with a path is the one that is found by it. -/
theorem unitAt?_of_unit (hn : r.paths.Nodup) (hu : r.units[unit]? = some u) (hp : u.path = some target) :
    r.unitAt? target = some unit := by
  obtain ⟨found, hfound⟩ := Option.isSome_iff_exists.1 (unitAt?_isSome.2 (hp ▸ mem_paths hu))
  obtain ⟨v, hv, hvp⟩ := path_of_unitAt? hfound
  have heq : r.paths[found]? = r.paths[unit]? := by
    rw [getElem?_paths hv, getElem?_paths hu, hvp, hp]
  have hlt : found < r.paths.length := (List.getElem?_eq_some_iff.1 (getElem?_paths hv)).1
  rw [hfound, (List.getElem?_inj hlt hn).1 heq]

/-! ### What registering keeps -/

/-- Units, macros and the places of both are kept, but for what is done to the templates at `active`. -/
structure Keeps (active : List (Option String)) (r r' : MacroRegistry) : Prop where
  paths : r.paths <+: r'.paths
  units : ∀ (unit : Nat) (u : TemplateUnit), r.units[unit]? = some u → u.path ∉ active →
    r'.units[unit]? = some u
  definitions : ∃ more : List MacroDefinition, r'.definitions = r.definitions ++ more ∧
    ∀ d ∈ more, ∀ u : TemplateUnit, r.units[d.unit]? = some u → u.path ∈ active

namespace Keeps

theorem refl : Keeps active r r :=
  ⟨List.prefix_refl _, fun _ _ hu _ => hu, [], (List.append_nil _).symm, List.forall_mem_nil _⟩

theorem trans (h : Keeps active r r') (h' : Keeps active r' s) : Keeps active r s := by
  obtain ⟨more, hm, hnew⟩ := h.definitions
  obtain ⟨more', hm', hnew'⟩ := h'.definitions
  refine ⟨h.paths.trans h'.paths, fun unit u hu hp => h'.units _ _ (h.units _ _ hu hp) hp, more ++ more',
    by rw [hm', hm, List.append_assoc], fun d hd u hu => ?_⟩
  rcases List.mem_append.1 hd with hd | hd
  · exact hnew d hd u hu
  · by_cases hp : u.path ∈ active
    · exact hp
    · exact hnew' d hd u (h.units _ _ hu hp)

/-- What is done to a template that was not there before changes nothing that was. -/
theorem narrow {a : Option String} (h : Keeps (a :: active) r r') (ha : a ∉ r.paths) : Keeps active r r' := by
  have hne : ∀ {unit : Nat} {u : TemplateUnit}, r.units[unit]? = some u → u.path ≠ a := by
    rintro unit u hu rfl
    exact ha (mem_paths hu)
  refine ⟨h.paths, fun unit u hu hp => h.units unit u hu ?_, h.definitions.imp fun more hm => ⟨hm.1, ?_⟩⟩
  · exact fun hm => (List.mem_cons.1 hm).elim (hne hu) hp
  · exact fun d hd u hu => (List.mem_cons.1 (hm.2 d hd u hu)).resolve_left (hne hu)

theorem opened (path : Option String) : Keeps active r (r.opened path) := by
  refine ⟨⟨[path], (paths_opened r path).symm⟩, fun unit u hu _ => ?_, [], (List.append_nil _).symm,
    List.forall_mem_nil _⟩
  rw [MacroRegistry.opened, List.getElem?_append_left (List.getElem?_eq_some_iff.1 hu).1, hu]

variable (h : Keeps active r r')

include h

theorem own?_eq (hu : r.units[unit]? = some u) (hp : u.path ∉ active) (name : String) :
    r'.own? unit name = r.own? unit name := by
  obtain ⟨more, hm, hnew⟩ := h.definitions
  have hnone : more.findIdx? (fun d => d.unit == unit && d.name == name) = none := by
    rw [List.findIdx?_eq_none_iff]
    intro d hd
    by_cases hdu : d.unit = unit
    · exact absurd (hnew d hd u (hdu ▸ hu)) hp
    · simp [hdu]
  rw [own?, hm, List.findIdx?_append, hnone, Option.map_none, Option.or_none, own?]

theorem filter_definitions (hu : r.units[unit]? = some u) (hp : u.path ∉ active) :
    r'.definitions.filter (·.unit == unit) = r.definitions.filter (·.unit == unit) := by
  obtain ⟨more, hm, hnew⟩ := h.definitions
  have hnone : more.filter (·.unit == unit) = [] :=
    List.filter_eq_nil_iff.2 fun d hd hdu => hp (hnew d hd u (eq_of_beq hdu ▸ hu))
  rw [hm, List.filter_append, hnone, List.append_nil]

theorem unitAt?_eq (ht : r.unitAt? target = some unit) : r'.unitAt? target = some unit := by
  obtain ⟨more, hm⟩ := h.paths
  rw [MacroRegistry.unitAt?_eq] at ht ⊢
  rw [← hm, List.findIdx?_append, ht]
  rfl

theorem exports_eq (ht : some target ∈ r.paths) (hp : some target ∉ active) :
    r'.exports target = r.exports target := by
  obtain ⟨unit, hunit⟩ := Option.isSome_iff_exists.1 (unitAt?_isSome.2 ht)
  obtain ⟨u, hu, hpath⟩ := path_of_unitAt? hunit
  have hu' := h.units unit u hu (hpath ▸ hp)
  simp only [exports, hunit, h.unitAt?_eq hunit, Option.map_some, MacroRegistry.names, hu, hu']

theorem imported?_eq (ht : ∀ entry ∈ entries,
      some (resolveUri entry.path path) ∈ r.paths ∧ some (resolveUri entry.path path) ∉ active)
    (label name : String) :
    r'.imported? path entries label name = r.imported? path entries label name :=
  imported?_congr fun entry he => h.exports_eq (ht entry he).1 (ht entry he).2

end Keeps

theorem Sees.keep {names : MacroNames} (hs : r.Sees unit path entries names) (h : Keeps active r r')
    (hu : r.units[unit]? = some u) (hp : u.path ∉ active) (ht : ∀ entry ∈ entries,
      some (resolveUri entry.path path) ∈ r.paths ∧ some (resolveUri entry.path path) ∉ active) :
    r'.Sees unit path entries names := by
  refine ⟨fun name => ?_, fun label hl name => ?_, hs.labels⟩
  · rw [h.own?_eq hu hp, h.imported?_eq ht]
    exact hs.own name
  · rw [h.imported?_eq ht]
    exact hs.aliased label hl name

/-! ### A unit's own macros -/

theorem defineMacro_ok {state state' : MacroRegistry × Fields Nat} {m : String × Element}
    (h : defineMacro unit state m = .ok state') :
    m.1 ≠ "" ∧ state.2.has m.1 = false ∧
      state' = (⟨state.1.units, state.1.definitions ++ [definitionOf unit m]⟩,
        state.2.insert m.1 state.1.definitions.length) := by
  unfold defineMacro at h
  dsimp only at h
  split at h
  · cases h
  · next hne =>
    split at h
    · cases h
    · next hnew =>
      cases h
      exact ⟨hne, by simpa using hnew, rfl⟩

/-- Macros that are named are named apart, and each name is the macro's own. -/
theorem defineMacros_ok {macros : List (String × Element)} {r : MacroRegistry} {own : Fields Nat}
    {state : MacroRegistry × Fields Nat} (hs : own.IsSorted)
    (h : macros.foldlM (defineMacro unit) (r, own) = .ok state) :
    state.2.IsSorted ∧ (macros.map Prod.fst).Nodup ∧ (∀ m ∈ macros, own.has m.1 = false) ∧
      ∀ name, state.2.get? name = (own.get? name).or
        ((macros.findIdx? (·.1 == name)).map (· + r.definitions.length)) := by
  induction macros generalizing r own with
  | nil =>
    cases h
    exact ⟨hs, List.nodup_nil, nofun, fun name => by simp⟩
  | cons m macros ih =>
    rw [List.foldlM_cons] at h
    obtain ⟨next, hnext, h⟩ := bind_eq_ok.1 h
    obtain ⟨-, hnew, rfl⟩ := defineMacro_ok hnext
    obtain ⟨hsorted, hnodup, hother, hget⟩ := ih (hs.insert ..) h
    have hnot : ∀ m' ∈ macros, m'.1 ≠ m.1 ∧ own.has m'.1 = false := by
      intro m' hm'
      have := hother m' hm'
      rw [Fields.has, Fields.get?_insert] at this
      split at this
      · cases this
      · next hne => exact ⟨hne, this⟩
    refine ⟨hsorted, ?_, ?_, fun name => ?_⟩
    · rw [List.map_cons, List.nodup_cons, List.mem_map]
      exact ⟨fun ⟨m', hm', heq⟩ => (hnot m' hm').1 heq, hnodup⟩
    · intro m' hm'
      rcases List.mem_cons.1 hm' with rfl | hm'
      · exact hnew
      · exact (hnot m' hm').2
    · rw [hget, Fields.get?_insert, List.findIdx?_cons]
      by_cases hname : name = m.1
      · have hnone : own.get? name = none := by
          rw [hname]
          simpa [Fields.has] using hnew
        simp [hname ▸ hnone, hname]
      · have hb : (m.1 == name) = false := by simpa using Ne.symm hname
        simp only [hname, hb, if_false, Bool.false_eq_true, List.length_append, List.length_singleton,
          Option.map_map]
        congr 2
        funext i
        show i + (r.definitions.length + 1) = i + 1 + r.definitions.length
        omega

theorem defineMacros_succeeds (unit : Nat) {macros : List (String × Element)} {r : MacroRegistry}
    {own : Fields Nat} (hn : ∀ m ∈ macros, m.1 ≠ "" ∧ own.has m.1 = false)
    (hd : (macros.map Prod.fst).Nodup) : ∃ state, macros.foldlM (defineMacro unit) (r, own) = .ok state := by
  induction macros generalizing r own with
  | nil => exact ⟨_, rfl⟩
  | cons m macros ih =>
    rw [List.map_cons, List.nodup_cons] at hd
    obtain ⟨hne, hnew⟩ := hn m (by simp)
    have hstep : defineMacro unit (r, own) m = .ok (⟨r.units, r.definitions ++ [definitionOf unit m]⟩,
        own.insert m.1 r.definitions.length) := by
      simp [defineMacro, hne, hnew, definitionOf]
    rw [List.foldlM_cons, hstep]
    refine ih (fun m' hm' => ⟨(hn m' (by simp [hm'])).1, ?_⟩) hd.2
    have hother : m'.1 ≠ m.1 := fun heq => hd.1 (heq ▸ List.mem_map_of_mem hm')
    rw [Fields.has, Fields.get?_insert, if_neg hother]
    exact (hn m' (by simp [hm'])).2

/-- The macro of a name among those that a unit adds to macros of other units. -/
theorem own?_of_definitions {macros : List (String × Element)} {before : List MacroDefinition}
    (hd : r.definitions = before ++ macros.map (definitionOf unit)) (hb : ∀ d ∈ before, d.unit ≠ unit)
    (name : String) :
    r.own? unit name = (macros.findIdx? (·.1 == name)).map (· + before.length) := by
  have hnone : before.findIdx? (fun d => d.unit == unit && d.name == name) = none := by
    rw [List.findIdx?_eq_none_iff]
    intro d hdm
    simp [hb d hdm]
  rw [own?, hd, List.findIdx?_append, hnone, Option.none_or, List.findIdx?_map]
  congr 2
  funext m
  simp [definitionOf]

theorem Sees.of_imports {names : MacroNames} {own : Fields Nat} (ho : own.IsSorted)
    (hown : ∀ name, own.get? name = r.own? unit name)
    (hn : ∀ label name, (names.under label).get? name = r.imported? path entries label name)
    (hl : ∀ label, names.has label ↔ label = "" ∨ ∃ entry ∈ entries, entry.label = label) :
    r.Sees unit path entries (names.extend "" own) := by
  refine ⟨fun name => ?_, fun label hne name => ?_, fun label => ?_⟩
  · rw [MacroNames.get?_under_extend ho, if_pos rfl, hown, hn]
  · rw [MacroNames.get?_under_extend ho, if_neg hne, hn]
  · rw [MacroNames.has_extend, hl]
    exact or_iff_right_of_imp Or.inl

end MacroRegistry

end MarkupTemplate
