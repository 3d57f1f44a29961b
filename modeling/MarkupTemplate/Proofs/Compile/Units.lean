import Mathlib.Data.List.Chain
import Mathlib.Data.List.Nodup
import Mathlib.Data.List.ReduceOption
import Mathlib.Logic.Relation
import MarkupTemplate.Proofs.Compile.Namespaces

/-!
# Registering a template and its imports

The templates of a compilation import each other (`Compilation.Imports`). While they are registered, those
that are under way make a trail from the main template, each imported by the one before it (`IsTrail`), and
`Progress` says of all others that they are done: their units see what they should, what they import is done
too, and no imports lead on from them forever. One import and one template keep that
(`registerDocument_progress`, `importUnit_progress`), or fail with a fault that is expected of them.
-/

namespace MarkupTemplate

/-- The import entries of a tree, in document order. -/
def MacroDirectives.importEntries (d : MacroDirectives) : List Directive.ImportEntry :=
  d.entries.map Prod.fst

theorem MacroDirectives.mem_requests {d : MacroDirectives} {path : Option String} {target : String} :
    target ∈ d.requests path ↔ ∃ entry ∈ d.importEntries, resolveUri entry.path path = target := by
  rw [requests_eq, importEntries, List.mem_map]
  simp only [List.mem_map, exists_exists_and_eq_and]

/-- A template that is compiled, at a path that it may do without, and what provides its imports. -/
structure Compilation where
  provider : ResourceProvider
  document : Document
  path : Option String

namespace Compilation

open MacroRegistry

/-- The tree of the template at a path, which is the main one, or one that is provided there. -/
inductive TreeAt (c : Compilation) : Option String → Document → Prop
  | main : TreeAt c c.path c.document
  | loaded {target text : String} {document : Document} (hne : c.path ≠ some target)
      (ht : c.provider.template target = .ok text) (hd : Document.parse text (some target) = .ok document) :
      TreeAt c (some target) document

/-- The template at one path has an import of the other path. -/
def Imports (c : Compilation) (a b : Option String) : Prop :=
  ∃ document directives, c.TreeAt a document ∧ MacroDirectives.ofNodes document.nodes = .ok directives ∧
    ∃ target ∈ directives.requests a, b = some target

/-- The main template leads to the path by its imports. -/
def Leads (c : Compilation) (a : Option String) : Prop :=
  Relation.ReflTransGen c.Imports c.path a

/-- A template that the main one leads to imports itself, directly or through others. -/
def HasCycle (c : Compilation) : Prop :=
  ∃ a, c.Leads a ∧ Relation.TransGen c.Imports a a

/-- The template at a path is there, with directives that are right and macros that are named apart. -/
def IsValid (c : Compilation) (a : Option String) : Prop :=
  ∃ document directives, c.TreeAt a document ∧ MacroDirectives.ofNodes document.nodes = .ok directives ∧
    (∀ m ∈ directives.macros, m.1 ≠ "") ∧ (directives.macros.map Prod.fst).Nodup

/-- All that the main template leads to is valid, and no chain of imports from it that meets no template twice
has as many imports as may follow each other. -/
structure IsRegular (c : Compilation) : Prop where
  valid : ∀ a, c.Leads a → c.IsValid a
  short : ∀ chain, (c.path :: chain).IsChain c.Imports → (c.path :: chain).Nodup →
    chain.length < maxImportDepth

/-- The only fault that a regular compilation may have: a circular import, where there is a cycle. -/
def Expects (c : Compilation) (fault : TemplateFault) : Prop :=
  c.IsRegular → c.HasCycle ∧ ∃ target location, fault = .macros (.circularImport target) location

variable {c : Compilation} {a b path : Option String} {active : List (Option String)} {r r' : MacroRegistry}
  {document document' : Document} {directives : MacroDirectives} {unit : Nat} {u : TemplateUnit}
  {target : String} {load : Importer}

theorem TreeAt.cases (h : c.TreeAt a document) :
    a = c.path ∧ document = c.document ∨ a ≠ c.path ∧ ∃ target text, a = some target ∧
      c.provider.template target = .ok text ∧ Document.parse text (some target) = .ok document := by
  cases h with
  | main => exact .inl ⟨rfl, rfl⟩
  | loaded hne ht hd => exact .inr ⟨Ne.symm hne, _, _, rfl, ht, hd⟩

theorem TreeAt.unique (h : c.TreeAt a document) (h' : c.TreeAt a document') : document = document' := by
  rcases h.cases with ⟨ha, rfl⟩ | ⟨ha, target, text, rfl, ht, hd⟩
  · rcases h'.cases with ⟨-, rfl⟩ | ⟨ha', -⟩
    · rfl
    · exact absurd ha ha'
  · rcases h'.cases with ⟨ha', -⟩ | ⟨-, _, _, heq, ht', hd'⟩
    · exact absurd ha' ha
    · cases heq
      cases ht.symm.trans ht'
      exact Except.ok.inj (hd.symm.trans hd')

theorem imports_iff (ht : c.TreeAt a document) (hd : MacroDirectives.ofNodes document.nodes = .ok directives) :
    c.Imports a b ↔ ∃ entry ∈ directives.importEntries, b = some (resolveUri entry.path a) := by
  constructor
  · rintro ⟨document', directives', ht', hd', target, hm, rfl⟩
    cases ht.unique ht'
    cases hd.symm.trans hd'
    obtain ⟨entry, he, rfl⟩ := MacroDirectives.mem_requests.1 hm
    exact ⟨entry, he, rfl⟩
  · rintro ⟨entry, he, rfl⟩
    exact ⟨document, directives, ht, hd, _, MacroDirectives.mem_requests.2 ⟨entry, he, rfl⟩, rfl⟩

/-! ### Templates under way -/

/-- Templates that are under way, the last one first: each is imported by the next. -/
structure IsTrail (c : Compilation) (active : List (Option String)) : Prop where
  linked : active.IsChain fun b a => c.Imports a b
  start : active.getLast? = some c.path
  distinct : active.Nodup

namespace IsTrail

theorem main : c.IsTrail [c.path] :=
  ⟨List.isChain_singleton _, rfl, List.nodup_singleton _⟩

theorem step (h : c.IsTrail (a :: active)) (hi : c.Imports a b) (hb : b ∉ a :: active) :
    c.IsTrail (b :: a :: active) :=
  ⟨List.isChain_cons_cons.2 ⟨hi, h.linked⟩, by rw [List.getLast?_cons_cons, h.start],
    List.nodup_cons.2 ⟨hb, h.distinct⟩⟩

theorem leads_head : ∀ {active : List (Option String)} {a : Option String}, c.IsTrail (a :: active) → c.Leads a
  | [], _, h => by
    cases h.start
    exact .refl
  | b :: active, a, h => by
    obtain ⟨hi, hlinked⟩ := List.isChain_cons_cons.1 h.linked
    have htail : c.IsTrail (b :: active) :=
      ⟨hlinked, by rw [← h.start, List.getLast?_cons_cons], (List.nodup_cons.1 h.distinct).2⟩
    exact (leads_head htail).tail hi

/-- From each template of a trail imports lead to its head. -/
theorem leads_to_head (h : c.IsTrail (a :: active)) (hb : b ∈ a :: active) :
    Relation.ReflTransGen c.Imports b a := by
  have hlinked := h.linked
  clear h
  induction active generalizing a with
  | nil =>
    rw [List.mem_singleton.1 hb]
  | cons first active ih =>
    obtain ⟨hi, hlinked⟩ := List.isChain_cons_cons.1 hlinked
    rcases List.mem_cons.1 hb with rfl | hb
    · exact .refl
    · exact (ih hb hlinked).tail hi

theorem length_le (h : c.IsTrail active) (hc : c.IsRegular) : active.length ≤ maxImportDepth := by
  have hstart : active.reverse.head? = some c.path := by
    rw [List.head?_reverse, h.start]
  obtain ⟨chain, hchain⟩ := List.head?_eq_some_iff.1 hstart
  have hshort := hc.short chain (hchain ▸ List.isChain_reverse.2 h.linked)
    (hchain ▸ List.nodup_reverse.2 h.distinct)
  rw [← List.length_reverse, hchain]
  exact hshort

end IsTrail

/-! ### Units that are done -/

/-- The unit of a template with the macros and the import entries of its tree. -/
structure IsUnit (c : Compilation) (r : MacroRegistry) (unit : Nat) (u : TemplateUnit) (document : Document)
    (directives : MacroDirectives) : Prop where
  tree : c.TreeAt u.path document
  valid : MacroDirectives.ofNodes document.nodes = .ok directives
  imported : ∀ entry ∈ directives.importEntries, some (resolveUri entry.path u.path) ∈ r.paths
  defined : r.definitions.filter (·.unit == unit) = directives.macros.map (definitionOf unit)
  distinct : (directives.macros.map Prod.fst).Nodup
  sees : r.Sees unit u.path directives.importEntries u.names

theorem IsUnit.keep (h : c.IsUnit r unit u document directives) (hk : Keeps active r r')
    (hu : r.units[unit]? = some u) (hp : u.path ∉ active)
    (ht : ∀ entry ∈ directives.importEntries, some (resolveUri entry.path u.path) ∉ active) :
    c.IsUnit r' unit u document directives where
  tree := h.tree
  valid := h.valid
  imported entry he := hk.paths.subset (h.imported entry he)
  defined := (hk.filter_definitions hu hp).trans h.defined
  distinct := h.distinct
  sees := h.sees.keep hk hu hp fun entry he => ⟨h.imported entry he, ht entry he⟩

/-- All templates that are registered are done, but for the active ones. -/
structure Progress (c : Compilation) (active : List (Option String)) (r : MacroRegistry) : Prop where
  sound : r.IsSound
  distinct : r.paths.Nodup
  leads : ∀ a ∈ r.paths, c.Leads a
  opened : ∀ a ∈ active, a ∈ r.paths
  owners : ∀ d ∈ r.definitions, ∃ u, r.units[d.unit]? = some u ∧ u.path ∉ active
  units : ∀ unit u, r.units[unit]? = some u → u.path ∉ active → ∃ document directives,
    c.IsUnit r unit u document directives ∧
      ∀ entry ∈ directives.importEntries, some (resolveUri entry.path u.path) ∉ active
  acyclic : ∀ a ∈ r.paths, a ∉ active → Acc (fun b a => c.Imports a b) a

namespace Progress

theorem empty : c.Progress [] MacroRegistry.empty where
  sound := .empty
  distinct := List.nodup_nil
  leads _ h := by cases h
  opened _ h := by cases h
  owners _ h := by cases h
  units _ _ h := by cases h
  acyclic _ h := by cases h

theorem start (h : c.Progress active r) (ha : a ∉ r.paths) (hl : c.Leads a) :
    c.Progress (a :: active) (r.opened a) := by
  have hk : Keeps active r (r.opened a) := .opened a
  have hnew : ∀ {b}, b ∈ r.paths → b ∉ active → b ∉ a :: active := by
    intro b hb hn hm
    rcases List.mem_cons.1 hm with rfl | hm
    · exact ha hb
    · exact hn hm
  have hpaths : ∀ {b}, b ∈ (r.opened a).paths → b ∈ r.paths ∨ b = a := by
    intro b hb
    rw [paths_opened, List.mem_append, List.mem_singleton] at hb
    exact hb
  have hself : a ∈ (r.opened a).paths := by
    rw [paths_opened]
    simp
  refine ⟨h.sound.opened a, ?_, ?_, ?_, ?_, ?_, ?_⟩
  · rw [paths_opened, List.nodup_append]
    exact ⟨h.distinct, List.nodup_singleton _, fun b hb d hd hbd => ha (List.mem_singleton.1 hd ▸ hbd ▸ hb)⟩
  · intro b hb
    rcases hpaths hb with hb | rfl
    · exact h.leads b hb
    · exact hl
  · intro b hb
    rcases List.mem_cons.1 hb with rfl | hb
    · exact hself
    · exact hk.paths.subset (h.opened b hb)
  · intro d hd
    obtain ⟨u, hu, hp⟩ := h.owners d hd
    exact ⟨u, hk.units _ _ hu hp, hnew (mem_paths hu) hp⟩
  · intro unit u hu hp
    have hold : r.units[unit]? = some u := by
      rcases Nat.lt_or_ge unit r.units.length with hlt | hge
      · rwa [MacroRegistry.opened, List.getElem?_append_left hlt] at hu
      · rw [MacroRegistry.opened, List.getElem?_append_right hge] at hu
        rw [List.mem_singleton.1 (List.mem_of_getElem? hu)] at hp
        exact absurd List.mem_cons_self hp
    have hp := fun hm => hp (List.mem_cons_of_mem _ hm)
    obtain ⟨document, directives, hunit, ht⟩ := h.units unit u hold hp
    exact ⟨document, directives, hunit.keep hk hold hp ht,
      fun entry he => hnew (hunit.imported entry he) (ht entry he)⟩
  · intro b hb hp
    rcases hpaths hb with hb | rfl
    · exact h.acyclic b hb fun hm => hp (List.mem_cons_of_mem _ hm)
    · exact absurd List.mem_cons_self hp

end Progress

/-! ### Import entries -/

/-- An importer for the template at the head of some active ones. -/
def Serves (c : Compilation) (active : List (Option String)) (load : Importer) : Prop :=
  ∀ target location r, (∃ a, active.head? = some a ∧ c.Imports a (some target)) → c.Progress active r →
    Gives (fun s => c.Progress active s.1 ∧ Keeps active r s.1 ∧ s.1.unitAt? target = some s.2 ∧
      some target ∉ active) c.Expects (load target location r)

/-- The registration of a template at `a` after some of its import entries. -/
structure Entered (c : Compilation) (a : Option String) (active : List (Option String)) (r : MacroRegistry)
    (entries : List Directive.ImportEntry) (state : Registration) : Prop where
  progress : c.Progress (a :: active) state.1
  keeps : Keeps (a :: active) (r.opened a) state.1
  imported : ∀ entry ∈ entries,
    some (resolveUri entry.path a) ∈ state.1.paths ∧ some (resolveUri entry.path a) ∉ a :: active
  names : ∀ label name, (state.2.under label).get? name = state.1.imported? a entries label name
  labels : ∀ label, state.2.has label ↔ label = "" ∨ ∃ entry ∈ entries, entry.label = label

namespace Entered

variable {entries : List Directive.ImportEntry} {state : Registration}

theorem begin (h : c.Progress active r) (ha : a ∉ r.paths) (hl : c.Leads a) :
    c.Entered a active r [] (r.begin a) where
  progress := h.start ha hl
  keeps := .refl
  imported _ h := by cases h
  names label name := by
    by_cases hlabel : label = ""
    · subst hlabel
      rfl
    · have hb : (label == "") = false := by simpa using hlabel
      simp [MacroRegistry.begin, MacroNames.under, Fields.get?, List.lookup_cons, hb, imported?]
  labels label := by
    by_cases hlabel : label = ""
    · subst hlabel
      simp [MacroRegistry.begin, Fields.has, Fields.get?]
    · have hb : (label == "") = false := by simpa using hlabel
      simp [MacroRegistry.begin, Fields.has, Fields.get?, List.lookup_cons, hb, hlabel]

theorem entry (h : c.Entered a active r entries state) (hload : c.Serves (a :: active) load)
    (entry : Directive.ImportEntry × Location) (hi : c.Imports a (some (resolveUri entry.1.path a))) :
    Gives (c.Entered a active r (entries ++ [entry.1])) c.Expects (registerEntry load a state entry) := by
  refine (hload _ entry.2 state.1 ⟨a, rfl, hi⟩ h.progress).bind
    fun ⟨next, unit⟩ _ ⟨hnext, hk, hunit, hnot⟩ => .ok ?_
  have hexports : next.exports (resolveUri entry.1.path a) = (next.names unit).under "" := by
    rw [exports, hunit]
    rfl
  have hreg : some (resolveUri entry.1.path a) ∈ next.paths :=
    unitAt?_isSome.1 (by rw [hunit]; rfl)
  refine ⟨hnext, h.keeps.trans hk, fun e he => ?_, fun label name => ?_, fun label => ?_⟩
  · rcases List.mem_append.1 he with he | he
    · exact ⟨hk.paths.subset (h.imported e he).1, (h.imported e he).2⟩
    · rw [List.mem_singleton.1 he]
      exact ⟨hreg, hnot⟩
  · rw [imported?_append, hk.imported?_eq h.imported,
      MacroNames.get?_under_extend ((hnext.sound.sorted_names unit).under ""), hexports, h.names]
    by_cases hlabel : label = entry.1.label
    · rw [if_pos hlabel, if_pos hlabel.symm]
    · rw [if_neg hlabel, if_neg (Ne.symm hlabel), Option.none_or]
  · rw [MacroNames.has_extend, h.labels]
    simp only [List.mem_append, List.mem_singleton]
    constructor
    · rintro (rfl | rfl | ⟨e, he, rfl⟩)
      · exact .inr ⟨entry.1, .inr rfl, rfl⟩
      · exact .inl rfl
      · exact .inr ⟨e, .inl he, rfl⟩
    · rintro (rfl | ⟨e, he | rfl, rfl⟩)
      · exact .inr (.inl rfl)
      · exact .inr (.inr ⟨e, he, rfl⟩)
      · exact .inl rfl

/-- All import entries of a template one after another. -/
theorem all (hload : c.Serves (a :: active) load) (h : c.Entered a active r entries state) :
    ∀ {rest : List (Directive.ImportEntry × Location)},
      (∀ entry ∈ rest, c.Imports a (some (resolveUri entry.1.path a))) →
      Gives (c.Entered a active r (entries ++ rest.map Prod.fst)) c.Expects
        (rest.foldlM (registerEntry load a) state) := by
  intro rest hi
  induction rest generalizing entries state with
  | nil =>
    rw [List.map_nil, List.append_nil]
    exact .ok h
  | cons entry rest ih =>
    rw [List.foldlM_cons, List.map_cons, List.append_cons]
    exact (h.entry hload entry (hi entry (by simp))).bind fun _ _ hs => ih hs fun e he => hi e (by simp [he])

end Entered

/-! ### A unit's own macros -/

/-- The registry once the macros of a unit and what it sees are known. -/
def named (s : MacroRegistry) (unit : Nat) (a : Option String) (names : MacroNames)
    (macros : List (String × Element)) : MacroRegistry :=
  ⟨s.units.set unit ⟨a, names⟩, s.definitions ++ macros.map (definitionOf unit)⟩

section Naming

variable {s : MacroRegistry} {names : MacroNames} {macros : List (String × Element)} {v : TemplateUnit}

theorem named_units (hv : s.units[unit]? = some v) {i : Nat}
    (hi : (named s unit a names macros).units[i]? = some u) :
    i = unit ∧ u = ⟨a, names⟩ ∨ i ≠ unit ∧ s.units[i]? = some u := by
  rw [named, List.getElem?_set] at hi
  split at hi
  · next heq =>
    rw [if_pos (List.getElem?_eq_some_iff.1 hv).1] at hi
    exact .inl ⟨heq.symm, (Option.some.inj hi).symm⟩
  · next hne => exact .inr ⟨Ne.symm hne, hi⟩

theorem named_paths (hv : s.units[unit]? = some v) (ha : v.path = a) :
    (named s unit a names macros).paths = s.paths := by
  obtain ⟨hlt, hpath⟩ := List.getElem?_eq_some_iff.1 (getElem?_paths hv)
  rw [MacroRegistry.paths, named, List.map_set]
  show s.paths.set unit a = s.paths
  rw [← ha, ← hpath]
  exact List.set_getElem_self hlt

theorem keeps_named (hv : s.units[unit]? = some v) (ha : v.path = a) :
    Keeps (a :: active) s (named s unit a names macros) := by
  refine ⟨named_paths hv ha ▸ List.prefix_refl _, fun i w hw hp => ?_, macros.map (definitionOf unit), rfl,
    fun d hd w hw => ?_⟩
  · have hne : unit ≠ i := by
      rintro rfl
      cases hv.symm.trans hw
      exact hp (ha ▸ List.mem_cons_self)
    rw [named, List.getElem?_set_ne hne, hw]
  · obtain ⟨m, -, rfl⟩ := List.mem_map.1 hd
    cases hv.symm.trans hw
    exact ha ▸ List.mem_cons_self

/-- A unit has no macros until they are named. -/
theorem Progress.not_owner (h : c.Progress (a :: active) s) (hv : s.units[unit]? = some v) (ha : v.path = a) :
    ∀ d ∈ s.definitions, d.unit ≠ unit := by
  rintro d hd rfl
  obtain ⟨w, hw, hp⟩ := h.owners d hd
  cases hv.symm.trans hw
  exact hp (ha ▸ List.mem_cons_self)

theorem named_isUnit {own : Fields Nat} {state : Registration}
    (h : c.Entered a active r directives.importEntries state) (hv : state.1.units[unit]? = some v)
    (ha : v.path = a) (ht : c.TreeAt a document) (hd : MacroDirectives.ofNodes document.nodes = .ok directives)
    (hn : (directives.macros.map Prod.fst).Nodup) (hs : own.IsSorted) (hown : ∀ name, own.get? name =
      (directives.macros.findIdx? (·.1 == name)).map (· + state.1.definitions.length)) :
    c.IsUnit (named state.1 unit a (state.2.extend "" own) directives.macros) unit
      ⟨a, state.2.extend "" own⟩ document directives := by
  have hfree := h.progress.not_owner hv ha
  have hk : Keeps (a :: active) state.1 (named state.1 unit a (state.2.extend "" own) directives.macros) :=
    keeps_named hv ha
  refine ⟨ht, hd, fun entry he => hk.paths.subset (h.imported entry he).1, ?_, hn, ?_⟩
  · have hnone : state.1.definitions.filter (·.unit == unit) = [] :=
      List.filter_eq_nil_iff.2 fun d hdm => by simpa using hfree d hdm
    have hall : (directives.macros.map (definitionOf unit)).filter (·.unit == unit) =
        directives.macros.map (definitionOf unit) := by
      refine List.filter_eq_self.2 fun d hdm => ?_
      obtain ⟨m, -, rfl⟩ := List.mem_map.1 hdm
      exact beq_self_eq_true _
    rw [named, List.filter_append, hnone, hall, List.nil_append]
  · refine .of_imports hs (fun name => ?_) (fun label name => ?_) h.labels
    · rw [hown, own?_of_definitions rfl hfree]
    · rw [hk.imported?_eq h.imported, h.names]

theorem named_progress {state : Registration} (h : c.Entered a active r directives.importEntries state)
    (hna : a ∉ active) (hv : state.1.units[unit]? = some v) (ha : v.path = a)
    (hsound : (named state.1 unit a names directives.macros).IsSound)
    (hunit : c.IsUnit (named state.1 unit a names directives.macros) unit ⟨a, names⟩ document directives) :
    c.Progress active (named state.1 unit a names directives.macros) := by
  have hpaths : (named state.1 unit a names directives.macros).paths = state.1.paths := named_paths hv ha
  have hk : Keeps (a :: active) state.1 (named state.1 unit a names directives.macros) := keeps_named hv ha
  have hself : (named state.1 unit a names directives.macros).units[unit]? = some ⟨a, names⟩ := by
    rw [named, List.getElem?_set_self (List.getElem?_eq_some_iff.1 hv).1]
  have hother : ∀ {i u}, i ≠ unit → state.1.units[i]? = some u → u.path ∉ active → u.path ∉ a :: active := by
    intro i u hne hu hp hm
    rcases List.mem_cons.1 hm with heq | hm
    · -- two units never have one path
      have hlt := (List.getElem?_eq_some_iff.1 (getElem?_paths hu)).1
      refine hne ((List.getElem?_inj hlt h.progress.distinct).1 ?_)
      rw [getElem?_paths hu, getElem?_paths hv, heq, ha]
    · exact hp hm
  refine ⟨hsound, hpaths ▸ h.progress.distinct, hpaths ▸ h.progress.leads, fun b hb => ?_, fun d hd => ?_,
    fun i u hu hp => ?_, fun b hb hp => ?_⟩
  · exact hpaths ▸ h.progress.opened b (List.mem_cons_of_mem _ hb)
  · rcases List.mem_append.1 hd with hd | hd
    · obtain ⟨u, hu, hp⟩ := h.progress.owners d hd
      exact ⟨u, hk.units _ _ hu hp, fun hm => hp (List.mem_cons_of_mem _ hm)⟩
    · obtain ⟨m, -, rfl⟩ := List.mem_map.1 hd
      exact ⟨_, hself, hna⟩
  · rcases named_units hv hu with ⟨rfl, rfl⟩ | ⟨hne, hu⟩
    · exact ⟨document, directives, hunit,
        fun entry he hm => (h.imported entry he).2 (List.mem_cons_of_mem _ hm)⟩
    · have hp := hother hne hu hp
      obtain ⟨document', directives', hunit', ht'⟩ := h.progress.units i u hu hp
      exact ⟨document', directives', hunit'.keep hk hu hp ht',
        fun entry he hm => ht' entry he (List.mem_cons_of_mem _ hm)⟩
  · rw [hpaths] at hb
    by_cases hba : b = a
    · subst hba
      refine ⟨_, fun d hi => ?_⟩
      obtain ⟨entry, he, rfl⟩ := (imports_iff hunit.tree hunit.valid).1 hi
      exact h.progress.acyclic _ (h.imported entry he).1 (h.imported entry he).2
    · refine h.progress.acyclic b hb fun hm => ?_
      exact (List.mem_cons.1 hm).elim hba hp

end Naming

/-! ### Templates -/

theorem expects_of_invalid {fault : TemplateFault} (hl : c.Leads a) (h : ¬c.IsValid a) : c.Expects fault :=
  fun hc => absurd (hc.valid a hl) h

theorem registerDocument_progress (hload : c.Serves (a :: active) load) (hkeeps : KeepsSound load)
    (ht : c.TreeAt a document) (hl : c.Leads a) (h : c.Progress active r) (ha : a ∉ r.paths) :
    Gives (fun s => c.Progress active s.1 ∧ Keeps active r s.1 ∧
      ∃ names, s.1.units[s.2]? = some ⟨a, names⟩) c.Expects (registerDocument load document a r) := by
  have hsound : ∀ {s}, registerDocument load document a r = .ok s → s.1.IsSound :=
    fun hs => ((registerDocument_sound hkeeps document a h.sound).of_ok hs).1
  rw [registerDocument_eq] at hsound ⊢
  cases hd : MacroDirectives.ofNodes document.nodes with
  | error fault =>
    refine .error (expects_of_invalid hl ?_)
    rintro ⟨document', directives, ht', hd', -⟩
    cases ht.unique ht'
    cases hd.symm.trans hd'
  | ok directives =>
    rw [hd] at hsound
    have hi : ∀ entry ∈ directives.entries, c.Imports a (some (resolveUri entry.1.path a)) :=
      fun entry he => (imports_iff ht hd).2 ⟨entry.1, List.mem_map_of_mem he, rfl⟩
    refine ((Entered.begin h ha hl).all hload hi).bind fun state hstate hs => ?_
    have hsound : ∀ {s}, nameMacros r.units.length a directives state = .ok s → s.1.IsSound :=
      fun hn => hsound (bind_eq_ok.2 ⟨directives, rfl, bind_eq_ok.2 ⟨state, hstate, hn⟩⟩)
    obtain ⟨v, hv, hp⟩ : ∃ v, state.1.units[r.units.length]? = some v ∧ v.path = a := by
      obtain ⟨more, hmore⟩ := hs.keeps.paths
      have hpath : state.1.paths[r.units.length]? = some a := by
        rw [← hmore, paths_opened, List.append_assoc, ← List.length_map TemplateUnit.path]
        exact List.getElem?_append_right (Nat.le_refl _) ▸ by simp [MacroRegistry.paths]
      rw [MacroRegistry.paths, List.getElem?_map] at hpath
      exact Option.map_eq_some_iff.1 hpath
    unfold nameMacros at hsound ⊢
    cases hm : directives.macros.foldlM (defineMacro r.units.length) (state.1, []) with
    | error fault =>
      refine .error (expects_of_invalid hl ?_)
      rintro ⟨document', directives', ht', hd', hnamed, hdistinct⟩
      cases ht.unique ht'
      cases hd.symm.trans hd'
      have hok : ∃ s, directives.macros.foldlM (defineMacro r.units.length) (state.1, []) = .ok s :=
        defineMacros_succeeds _ (fun m hm => ⟨hnamed m hm, rfl⟩) hdistinct
      obtain ⟨s, hs⟩ := hok
      cases hm.symm.trans hs
    | ok s =>
      obtain ⟨last, own⟩ := s
      rw [hm] at hsound
      obtain ⟨hsorted, hdistinct, -, hown⟩ := defineMacros_ok List.Pairwise.nil hm
      have hbelow : Fields.Below state.1.definitions.length [] := fun found hf => by cases hf
      obtain ⟨hlast, -⟩ := (defineMacros_gives r.units.length directives.macros state.1 hbelow).of_ok hm
      dsimp only at hlast
      subst hlast
      have hunit := named_isUnit hs hv hp ht hd hdistinct hsorted hown
      refine .ok ⟨?_, ?_, state.2.extend "" own, ?_⟩
      · exact named_progress hs (fun hm => ha (h.opened a hm)) hv hp (hsound rfl) hunit
      · exact (((Keeps.opened a).trans hs.keeps).trans (keeps_named hv hp)).narrow ha
      · exact List.getElem?_set_self (List.getElem?_eq_some_iff.1 hv).1

/-- Imports are followed along a trail, `depth` being what is left of the number that may follow each other. -/
theorem importUnit_serves (depth : Nat) (htrail : c.IsTrail active)
    (hdepth : depth + active.length = maxImportDepth + 1) :
    c.Serves active (importUnit c.provider depth active.reduceOption) := by
  induction depth generalizing active with
  | zero =>
    intro target location r _ _
    refine .error fun hc => ?_
    have := htrail.length_le hc
    omega
  | succ depth ih =>
    rintro target location r ⟨a, hhead, hi⟩ h
    obtain ⟨above, rfl⟩ := List.head?_eq_some_iff.1 hhead
    unfold importUnit
    split
    · next hm =>
      have hm := List.reduceOption_mem_iff.1 (List.contains_iff_mem.1 hm)
      refine .error fun _ => ⟨⟨some target, htrail.leads_head.tail hi, ?_⟩, target, location, rfl⟩
      exact Relation.TransGen.tail' (htrail.leads_to_head hm) hi
    · next hnot =>
      have hnot : some target ∉ a :: above :=
        fun hm => hnot (List.contains_iff_mem.2 (List.reduceOption_mem_iff.2 hm))
      cases hknown : r.unitAt? target with
      | some unit => exact .ok ⟨h, .refl, hknown, hnot⟩
      | none =>
        have hnew := not_mem_paths hknown
        have hl : c.Leads (some target) := htrail.leads_head.tail hi
        have hne : c.path ≠ some target := by
          intro heq
          exact hnot (heq ▸ List.mem_of_getLast? htrail.start)
        cases htext : c.provider.template target with
        | error fault =>
          refine .error (expects_of_invalid hl ?_)
          rintro ⟨_, _, ht, -⟩
          rcases ht.cases with ⟨heq, -⟩ | ⟨-, _, _, heq, htext', -⟩
          · exact hne heq.symm
          · cases heq
            cases htext.symm.trans htext'
        | ok text =>
          cases hdoc : Document.parse text (some target) with
          | error fault =>
            simp only [bind, Except.bind, hdoc]
            refine .error (expects_of_invalid hl ?_)
            rintro ⟨_, _, ht, -⟩
            rcases ht.cases with ⟨heq, -⟩ | ⟨-, _, _, heq, htext', hdoc'⟩
            · exact hne heq.symm
            · cases heq
              cases htext.symm.trans htext'
              cases hdoc.symm.trans hdoc'
          | ok document =>
            simp only [bind, Except.bind, hdoc]
            have hload := ih (htrail.step hi hnot) (by
              rw [List.length_cons]
              omega)
            rw [List.reduceOption_cons_of_some] at hload
            refine (registerDocument_progress hload (importUnit_sound c.provider depth _)
              (.loaded hne htext hdoc) hl h hnew).imp ?_
            rintro s - ⟨hs, hk, names, hu⟩
            exact ⟨hs, hk, unitAt?_of_unit hs.distinct hu rfl, hnot⟩

/-- All templates of a compilation are done when the main one is. -/
theorem ofMain_progress (c : Compilation) :
    Gives (fun r => c.Progress [] r ∧ c.path ∈ r.paths) c.Expects (ofMain c.provider c.document c.path) := by
  have hchain : c.path.toList = [c.path].reduceOption := by
    cases c.path <;> rfl
  have hload : c.Serves [c.path] (importUnit c.provider maxImportDepth c.path.toList) :=
    hchain ▸ importUnit_serves maxImportDepth .main rfl
  unfold ofMain
  refine (registerDocument_progress hload (importUnit_sound c.provider _ _) .main .refl .empty nofun).bind
    fun s _ ⟨hs, _, names, hu⟩ => .ok ⟨hs, ?_⟩
  exact mem_paths hu

/-! ### The namespaces of the units -/

theorem Sees.get?_of_last {names : MacroNames} {before after : List Directive.ImportEntry}
    {entry : Directive.ImportEntry} {name : String} {id : Nat}
    (h : r.Sees unit path (before ++ entry :: after) names) (hlast : ∀ later ∈ after, later.label ≠ entry.label)
    (hown : entry.label = "" → r.own? unit name = none)
    (hid : (r.exports (resolveUri entry.path path)).get? name = some id) :
    (names.under entry.label).get? name = some id := by
  have himported : r.imported? path (before ++ entry :: after) entry.label name = some id := by
    have hafter : after.reverse.findSome? (fun later =>
        if later.label = entry.label then (r.exports (resolveUri later.path path)).get? name else none) = none := by
      refine List.findSome?_eq_none_iff.2 fun later hl => ?_
      rw [if_neg (hlast later (List.mem_reverse.1 hl))]
    rw [List.append_cons, imported?, List.reverse_append, List.findSome?_append, hafter, Option.none_or,
      ← imported?, imported?_append, if_pos rfl, hid, Option.some_or]
  by_cases hlabel : entry.label = ""
  · rw [hlabel, h.own, hown hlabel, Option.none_or, ← hlabel, himported]
  · rw [h.aliased _ hlabel, himported]

/-- Each unit of a template that is registered sees its own macros, and by each alias what the imports with
that alias export, later ones before earlier ones; and one unit at each path exports, whoever imports it, the
same macros. -/
theorem ofMain_sees (h : ofMain c.provider c.document c.path = .ok r) :
    (∀ unit u, r.units[unit]? = some u → ∃ document directives, c.IsUnit r unit u document directives) ∧
    (∀ target, some target ∈ r.paths → ∃! unit : Nat, ∃ u : TemplateUnit, r.units[unit]? = some u ∧
      u.path = some target ∧ r.exports target = u.names.under "") ∧
    ∀ unit u document directives, r.units[unit]? = some u → c.IsUnit r unit u document directives →
      ∀ before entry after name id, directives.importEntries = before ++ entry :: after →
        (∀ later ∈ after, later.label ≠ entry.label) → (entry.label = "" → r.own? unit name = none) →
        (r.exports (resolveUri entry.path u.path)).get? name = some id →
        (u.names.under entry.label).get? name = some id := by
  obtain ⟨hr, -⟩ := (ofMain_progress c).of_ok h
  refine ⟨fun unit u hu => ?_, fun target ht => ?_, ?_⟩
  · obtain ⟨document, directives, hunit, -⟩ := hr.units unit u hu List.not_mem_nil
    exact ⟨document, directives, hunit⟩
  · obtain ⟨unit, u, hu, hp⟩ := exists_unit ht
    have hat := unitAt?_of_unit hr.distinct hu hp
    refine ⟨unit, ⟨u, hu, hp, ?_⟩, ?_⟩
    · rw [exports, hat, Option.map_some, Option.getD_some, MacroRegistry.names, hu]
      rfl
    · rintro other ⟨v, hv, hvp, -⟩
      exact Option.some.inj ((unitAt?_of_unit hr.distinct hv hvp).symm.trans hat)
  · intro unit u document directives _ hunit before entry after name id hentries hlast hown hid
    exact Sees.get?_of_last (hentries ▸ hunit.sees) hlast hown hid

/-- A template imports a library and, through that, another one; both define a macro of one name. -/
def layered : Compilation where
  provider := (MemoryStore.ofTexts
    [("a", "<b metal:define-macro=\"m\"><i metal:define-macro=\"n\"/></b>"),
      ("b", "<p metal:import=\"a\" metal:define-macro=\"m\"/>")]).provider
  document := ((Document.parse
    "<p metal:import=\"x:b;b;x:a\" metal:define-macro=\"n\"/>" none).toOption).getD default
  path := none

theorem names_layered :
    (ofMain layered.provider layered.document layered.path).toOption.map (fun r => r.units.map TemplateUnit.names) =
      some [[("", [("m", 2), ("n", 3)]), ("x", [("m", 0), ("n", 1)])], [("", [("m", 2), ("n", 1)])],
        [("", [("m", 0), ("n", 1)])]] := by
  decide +kernel

theorem ofMain_sees_layered : ∃ r u document directives,
    ofMain layered.provider layered.document layered.path = .ok r ∧ r.units[0]? = some u ∧
    u.names = [("", [("m", 2), ("n", 3)]), ("x", [("m", 0), ("n", 1)])] ∧
    layered.IsUnit r 0 u document directives := by
  obtain ⟨r, hr, hnames⟩ := Option.map_eq_some_iff.1 names_layered
  have hr := eq_ok_of_toOption hr
  obtain ⟨u, hu, hun⟩ : ∃ u, r.units[0]? = some u ∧ u.names = _ := by
    have hfirst := congrArg (·[0]?) hnames
    rw [List.getElem?_map] at hfirst
    exact Option.map_eq_some_iff.1 hfirst
  obtain ⟨document, directives, hunit⟩ := (ofMain_sees hr).1 0 u hu
  exact ⟨r, u, document, directives, hr, hu, hun, hunit⟩

end Compilation

end MarkupTemplate
