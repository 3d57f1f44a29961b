import MarkupTemplate.Cache.Basic
import MarkupTemplate.Proofs.Compile.Registration
import MarkupTemplate.Proofs.Import.Closure

/-!
# Compiling against the imports that were collected

A template is compiled against a snapshot of the imports that a scan has collected. Equal texts make equal
snapshots, so nothing but the texts of the imports can make two programs differ
(`program_eq_of_importTexts`).

The scan and the registration of macros walk the imports in the same order, each template once. What is
registered the scan has met (`Met`), so a scan goes through wherever a registration does
(`importUnit_scanned`), and a provider of what the scan has found is asked for nothing else
(`importUnit_served`). Hence compiling against the snapshot is compiling against the provider
(`compile_eq_snapshot`), for templates in which scan and tree builder are in step, as they are in nested
ones (`AllInStep.of_nested`). They can fall out of step behind an end tag that passes over an open start tag,
where the scan keeps a scope that the builder has left; there an import can be missing in the snapshot
(`compile_ne_snapshot`).
-/

namespace MarkupTemplate

/-- The imports of a template with their texts; one read as text has none. -/
def TemplateMode.imports (mode : TemplateMode) (provider : ResourceProvider) (source : TemplateSource) :
    Except TemplateFault (List ImportedSource) :=
  match mode with
  | .text => .ok []
  | .markup => importClosure provider source

theorem CacheConfig.importsOf_eq (config : CacheConfig) (tree : FileTree) (request : TemplateRequest) :
    config.importsOf tree request =
      config.mode.imports (config.resources tree request) ⟨request.text, request.filename⟩ := rfl

/-! ### The texts of the imports -/

theorem TemplateMode.imports_eq_of_texts {mode : TemplateMode} {P Q : ResourceProvider}
    {source : TemplateSource} {found other : List ImportedSource}
    (hp : mode.imports P source = .ok found) (hq : mode.imports Q source = .ok other)
    (h : found.map ImportedSource.text = other.map ImportedSource.text) : found = other := by
  cases mode with
  | text =>
    cases hp
    cases hq
    rfl
  | markup => exact importClosure_eq_of_texts hp hq h

theorem CacheConfig.program_compileWith (config : CacheConfig) (request : TemplateRequest)
    (found : List ImportedSource) :
    CompiledProgram.program <$> config.compileWith request found =
      Program.compile (snapshot found) config.mode ⟨request.text, request.filename⟩ := by
  unfold CacheConfig.compileWith
  dsimp only
  cases Program.compile (snapshot found) config.mode ⟨request.text, request.filename⟩ <;> rfl

/-- The texts of the imports determine the paths and the program; so requests to any caches, with any
providers, that agree in template, mode, filename and texts of imports get the same program. -/
theorem program_eq_of_importTexts :
    (∀ (P Q : ResourceProvider) (mode : TemplateMode) (source : TemplateSource)
        (found other : List ImportedSource), mode.imports P source = .ok found →
      mode.imports Q source = .ok other →
      found.map ImportedSource.text = other.map ImportedSource.text →
      found.map ImportedSource.path = other.map ImportedSource.path ∧
        Program.compile (snapshot found) mode source = Program.compile (snapshot other) mode source) ∧
    (∀ (c d : CacheConfig) (t u : FileTree) (r s : TemplateRequest) (found other : List ImportedSource),
      r.text = s.text → c.mode = d.mode → r.filename = s.filename →
      c.importsOf t r = .ok found → d.importsOf u s = .ok other →
      found.map ImportedSource.text = other.map ImportedSource.text →
      CompiledProgram.program <$> c.compileWith r found =
        CompiledProgram.program <$> d.compileWith s other) := by
  constructor
  · intro P Q mode source found other hp hq h
    rw [TemplateMode.imports_eq_of_texts hp hq h]
    exact ⟨rfl, rfl⟩
  · intro c d t u r s found other htext hmode hname hp hq h
    rw [CacheConfig.importsOf_eq, htext, hmode, hname] at hp
    rw [TemplateMode.imports_eq_of_texts hp hq h, CacheConfig.program_compileWith,
      CacheConfig.program_compileWith, htext, hmode, hname]

/-- A template below a directory whose import leads out of it. -/
def importingPage : TemplateSource :=
  ⟨"<p metal:import=\"../lib.pt\" metal:use-macro=\"macros/m\"/>", some "pages/one.pt"⟩

def libraryText : String := "<b metal:define-macro=\"m\">x</b>"

/-- A store that holds the template at the import's path, and one that holds it beside another one. -/
def libraryStore : ResourceProvider := (MemoryStore.ofTexts [("lib.pt", libraryText)]).provider

def crowdedStore : ResourceProvider :=
  (MemoryStore.ofTexts [("pages/lib.pt", "<i/>"), ("lib.pt", libraryText)]).provider

theorem program_eq_of_importTexts_page : ∃ found other,
    TemplateMode.markup.imports libraryStore importingPage = .ok found ∧
    TemplateMode.markup.imports crowdedStore importingPage = .ok other ∧
    found.map ImportedSource.text = [libraryText] ∧ other.map ImportedSource.text = [libraryText] ∧
    found.map ImportedSource.path = other.map ImportedSource.path ∧
    Program.compile (snapshot found) .markup importingPage =
      Program.compile (snapshot other) .markup importingPage := by
  have hp : TemplateMode.markup.imports libraryStore importingPage =
    .ok [⟨"lib.pt", libraryText⟩] := by decide +kernel
  have hq : TemplateMode.markup.imports crowdedStore importingPage =
    .ok [⟨"lib.pt", libraryText⟩] := by decide +kernel
  exact ⟨_, _, hp, hq, rfl, rfl, program_eq_of_importTexts.1 _ _ _ _ _ _ hp hq rfl⟩

/-! ### Templates that a compilation may ask for -/

/-- The template `source`, and those that its imports lead to. -/
inductive Reaches (P : ResourceProvider) (source : TemplateSource) : TemplateSource → Prop
  | self : Reaches P source source
  | imported {t : TemplateSource} {targets : List String} {target text : String} (ht : Reaches P source t)
      (hi : importTargets t = .ok targets) (hm : target ∈ targets)
      (htext : P.template target = .ok text) : Reaches P source ⟨text, some target⟩

/-- Scan and builder are in step in a template and in all that its imports lead to. -/
def AllInStep (P : ResourceProvider) (source : TemplateSource) : Prop :=
  ∀ t, Reaches P source t → t.InStep

/-- They are in step where no end tag passes over an open start tag. -/
theorem AllInStep.of_nested {P : ResourceProvider} {source : TemplateSource}
    (h : ∀ t, Reaches P source t → Nested t.text t.path) : AllInStep P source :=
  fun t ht => inStep_of_nested (h t ht)

/-- A path that a template of the compilation imports, so that the template there belongs to it too. -/
def Awaited (P : ResourceProvider) (source : TemplateSource) (target : String) : Prop :=
  ∀ text, P.template target = .ok text → Reaches P source ⟨text, some target⟩

namespace MacroRegistry

open ImportScan

variable {P Q : ResourceProvider} {source t : TemplateSource} {r r' : MacroRegistry}
  {scan s : ImportScan} {target : String} {path : Option String} {unit depth : Nat} {chain : List String}
  {load load' : Importer} {f : Follower} {entries : List (Directive.ImportEntry × Location)}
  {state state' : Registration} {document : Document} {location : Location}

/-- The templates that are registered under a path are those that the scan has met. -/
def Met (r : MacroRegistry) (scan : ImportScan) : Prop :=
  ∀ target, some target ∈ r.paths ↔ target ∈ scan.visited

theorem Met.opened {found : List ImportedSource} (h : Met r scan) (target : String) :
    Met (r.opened (some target)) ⟨target :: scan.visited, found⟩ := by
  intro other
  rw [paths_opened, List.mem_append, List.mem_singleton, Option.some.injEq, List.mem_cons, h other,
    Or.comm]

theorem met_main (path : Option String) : Met (empty.opened path) ⟨path.toList, []⟩ := by
  intro target
  rw [paths_opened, Option.mem_toList]
  show some target ∈ [path] ↔ path = some target
  rw [List.mem_singleton, eq_comm]

/-- The requests of a template's tree are awaited. -/
theorem awaited_of_entries {directives : MacroDirectives} (hs : AllInStep P source)
    (ht : Reaches P source t) (hd : Document.parse t.text t.path = .ok document)
    (hm : MacroDirectives.ofNodes document.nodes = .ok directives) :
    ∀ entry ∈ directives.entries, Awaited P source (resolveUri entry.1.path t.path) := by
  intro entry he text htext
  refine .imported ht (importTargets_eq_requests (hs t ht) hd hm) ?_ htext
  rw [MacroDirectives.requests_eq]
  exact List.mem_map_of_mem he

/-! ### The scan goes where the registration goes -/

/-- What an importer registers, the scan meets. -/
def Scanned (P : ResourceProvider) (source : TemplateSource) (load : Importer) (f : Follower) : Prop :=
  ∀ {target location r r' unit scan}, Awaited P source target → Met r scan →
    load target location r = .ok (r', unit) → ∃ s, visit P f scan target = .ok s ∧ Met r' s

theorem entries_scanned (hload : Scanned P source load f)
    (hw : ∀ entry ∈ entries, Awaited P source (resolveUri entry.1.path path)) (hm : Met state.1 scan)
    (h : entries.foldlM (registerEntry load path) state = .ok state') :
    ∃ s, (entries.map fun entry => resolveUri entry.1.path path).foldlM (visit P f) scan = .ok s ∧
      Met state'.1 s := by
  induction entries generalizing state scan with
  | nil =>
    cases h
    exact ⟨scan, rfl, hm⟩
  | cons entry entries ih =>
    obtain ⟨hentry, hw⟩ := List.forall_mem_cons.1 hw
    rw [List.foldlM_cons] at h
    obtain ⟨next, hn, h⟩ := bind_eq_ok.1 h
    obtain ⟨unit, hl⟩ := registerEntry_ok hn
    obtain ⟨met, hv, hm⟩ := hload hentry hm hl
    obtain ⟨s, hs, hm⟩ := ih hw hm h
    exact ⟨s, by rw [List.map_cons, List.foldlM_cons]; exact bind_eq_ok.2 ⟨met, hv, hs⟩, hm⟩

theorem document_scanned (hs : AllInStep P source) (hext : Extends load)
    (hload : Scanned P source load (follow P depth)) (ht : Reaches P source t)
    (hd : Document.parse t.text t.path = .ok document) (hm : Met (r.opened t.path) scan)
    (h : registerDocument load document t.path r = .ok (r', unit)) :
    ∃ s, follow P (depth + 1) t scan = .ok s ∧ Met r' s := by
  obtain ⟨directives, state, hdirectives, hentries, hpaths⟩ := registerDocument_ok hext h
  obtain ⟨s, hscan, hmet⟩ :=
    entries_scanned hload (awaited_of_entries hs ht hd hdirectives) hm hentries
  refine ⟨s, bind_eq_ok.2 ⟨_, importTargets_eq_requests (hs t ht) hd hdirectives, ?_⟩, ?_⟩
  · rw [MacroDirectives.requests_eq]
    exact hscan
  · intro target
    rw [hpaths]
    exact hmet target

theorem visit_known {f : Follower} (h : target ∈ scan.visited) : visit P f scan target = .ok scan := by
  rw [visit, if_pos (List.contains_iff_mem.2 h)]
  rfl

theorem visit_new {f : Follower} (h : target ∉ scan.visited) : visit P f scan target = (do
    let text ← P.template target
    f ⟨text, some target⟩ ⟨target :: scan.visited, scan.found ++ [⟨target, text⟩]⟩) := by
  rw [visit, if_neg (mt List.contains_iff_mem.1 h)]

theorem importUnit_scanned (hs : AllInStep P source) : ∀ depth chain,
    Scanned P source (importUnit P depth chain) (follow P depth)
  | 0, _, _, _, _, _, _, _, _, _, h => by cases h
  | depth + 1, chain, target, location, r, r', unit, scan, ha, hm, h => by
    obtain ⟨hknown, rfl⟩ | ⟨hnew, text, document, htext, hd, h⟩ := importUnit_ok h
    · exact ⟨scan, visit_known ((hm target).1 hknown), hm⟩
    · obtain ⟨s, hfollow, hmet⟩ := document_scanned (t := ⟨text, some target⟩) hs
        (importUnit_extends depth (target :: chain)) (importUnit_scanned hs depth (target :: chain))
        (ha text htext) hd (hm.opened target) h
      refine ⟨s, ?_, hmet⟩
      rw [visit_new (mt (hm target).2 hnew)]
      exact bind_eq_ok.2 ⟨text, htext, hfollow⟩

/-! ### A provider of what the scan has found -/

/-- Two importers do the same where a scan goes through and `Q` has all that it comes to find. -/
def Served (P Q : ResourceProvider) (source : TemplateSource) (load load' : Importer) (f : Follower) :
    Prop :=
  ∀ {target location r scan s}, Awaited P source target → Met r scan →
    visit P f scan target = .ok s → Q.Serves s.found → load target location r = load' target location r

theorem entries_served (hf : ImportScan.Extends f) (hload : Scanned P source load f)
    (hsame : Served P Q source load load' f)
    (hw : ∀ entry ∈ entries, Awaited P source (resolveUri entry.1.path path)) (hm : Met state.1 scan)
    (h : (entries.map fun entry => resolveUri entry.1.path path).foldlM (visit P f) scan = .ok s)
    (hq : Q.Serves s.found) :
    entries.foldlM (registerEntry load path) state = entries.foldlM (registerEntry load' path) state := by
  induction entries generalizing state scan with
  | nil => rfl
  | cons entry entries ih =>
    obtain ⟨hentry, hw⟩ := List.forall_mem_cons.1 hw
    rw [List.map_cons, List.foldlM_cons] at h
    obtain ⟨met, hv, h⟩ := bind_eq_ok.1 h
    have heq : registerEntry load path state entry = registerEntry load' path state entry := by
      unfold registerEntry importEntry
      rw [hsame hentry hm hv (hq.of_prefix (visitAll_extends hf h))]
    rw [List.foldlM_cons, List.foldlM_cons, ← heq]
    cases hn : registerEntry load path state entry with
    | error fault => rfl
    | ok next =>
      obtain ⟨unit, hl⟩ := registerEntry_ok hn
      obtain ⟨met', hv', hm⟩ := hload hentry hm hl
      obtain rfl : met = met' := by
        rw [hv] at hv'
        exact Except.ok.inj hv'
      exact ih hw hm h

theorem document_served (hs : AllInStep P source)
    (hload : Scanned P source load (follow P depth))
    (hsame : Served P Q source load load' (follow P depth)) (ht : Reaches P source t)
    (hd : Document.parse t.text t.path = .ok document) (hm : Met (r.opened t.path) scan)
    (h : follow P (depth + 1) t scan = .ok s) (hq : Q.Serves s.found) :
    registerDocument load document t.path r = registerDocument load' document t.path r := by
  refine registerDocument_congr fun directives hdirectives => ?_
  obtain ⟨targets, htargets, h⟩ := bind_eq_ok.1 h
  obtain rfl : directives.requests t.path = targets := by
    rw [importTargets_eq_requests (hs t ht) hd hdirectives] at htargets
    exact Except.ok.inj htargets
  rw [MacroDirectives.requests_eq] at h
  exact entries_served (follow_extends depth) hload hsame
    (awaited_of_entries hs ht hd hdirectives) hm h hq

theorem importUnit_served (hs : AllInStep P source) : ∀ depth chain,
    Served P Q source (importUnit P depth chain) (importUnit Q depth chain) (follow P depth)
  | 0, _, _, _, _, _, _, _, _, _, _ => rfl
  | depth + 1, chain, target, location, r, scan, s, ha, hm, h, hq => by
    unfold importUnit
    split
    · rfl
    · split
      · rfl
      · rename_i hnone
        rw [visit_new (mt (hm target).2 (not_mem_paths hnone))] at h
        obtain ⟨text, htext, h⟩ := bind_eq_ok.1 h
        -- the text is among those found, so both providers give it
        have hfound : (⟨target, text⟩ : ImportedSource) ∈ s.found :=
          (follow_extends _ h).subset (List.mem_append_right _ (List.mem_singleton_self _))
        rw [htext, hq _ hfound]
        cases hd : Document.parse text (some target) with
        | error fault =>
          dsimp only [bind, Except.bind]
          rw [hd]
        | ok document =>
          dsimp only [bind, Except.bind]
          rw [hd]
          exact document_served (t := ⟨text, some target⟩) hs
            (importUnit_scanned hs depth (target :: chain)) (importUnit_served hs depth (target :: chain))
            (ha text htext) hd (hm.opened target) h hq

/-! ### The main template -/

theorem ofMain_scanned (hs : AllInStep P source)
    (hd : Document.parse source.text source.path = .ok document)
    (h : ofMain P document source.path = .ok r) : ∃ found, importClosure P source = .ok found := by
  obtain ⟨⟨last, unit⟩, h, -⟩ := bind_eq_ok.1 h
  obtain ⟨s, hfollow, -⟩ := document_scanned hs (importUnit_extends maxImportDepth _)
    (importUnit_scanned hs maxImportDepth _) .self hd (met_main source.path) h
  exact ⟨s.found, bind_eq_ok.2 ⟨s, hfollow, rfl⟩⟩

theorem ofMain_served (hs : AllInStep P source)
    (hd : Document.parse source.text source.path = .ok document) {found : List ImportedSource}
    (h : importClosure P source = .ok found) (hq : Q.Serves found) :
    ofMain P document source.path = ofMain Q document source.path := by
  obtain ⟨s, hfollow, h⟩ := bind_eq_ok.1 h
  cases h
  unfold ofMain
  dsimp only
  rw [document_served hs (importUnit_scanned hs maxImportDepth _)
    (importUnit_served hs maxImportDepth source.path.toList) .self hd (met_main source.path) hfollow hq]

end MacroRegistry

namespace Program

variable {P : ResourceProvider} {source : TemplateSource}

theorem imports_of_compile {mode : TemplateMode} {program : Program} (hs : AllInStep P source)
    (h : compile P mode source = .ok program) : ∃ found, mode.imports P source = .ok found := by
  cases mode with
  | text => exact ⟨[], rfl⟩
  | markup =>
    unfold compile at h
    dsimp only at h
    split at h
    · cases h
    · rename_i document hd
      obtain ⟨r, hr, -⟩ := bind_eq_ok.1 h
      exact MacroRegistry.ofMain_scanned hs hd hr

theorem compile_of_imports {mode : TemplateMode} {found : List ImportedSource} (hs : AllInStep P source)
    (h : mode.imports P source = .ok found) : compile (snapshot found) mode source = compile P mode source := by
  cases mode with
  | text => rfl
  | markup =>
    unfold compile
    dsimp only
    split
    · rfl
    · rename_i document hd
      unfold ofDocument
      rw [MacroRegistry.ofMain_served hs hd h (importClosure_serves h).snapshot]

end Program

/-- Compiling against the imports that were collected is compiling against their provider, and the scan
finds what each tree requests, if scan and builder are in step. -/
theorem compile_eq_snapshot {P : ResourceProvider} {mode : TemplateMode} {source : TemplateSource}
    (hs : AllInStep P source) :
    (∀ program, Program.compile P mode source = .ok program → ∃ found,
      mode.imports P source = .ok found ∧ Program.compile (snapshot found) mode source = .ok program) ∧
    (∀ found, mode.imports P source = .ok found →
      Program.compile (snapshot found) mode source = Program.compile P mode source) ∧
    ∀ t document directives, Reaches P source t → Document.parse t.text t.path = .ok document →
      MacroDirectives.ofNodes document.nodes = .ok directives →
      importTargets t = .ok (directives.requests t.path) := by
  refine ⟨?_, fun found hf => Program.compile_of_imports hs hf, ?_⟩
  · intro program h
    obtain ⟨found, hf⟩ := Program.imports_of_compile hs h
    exact ⟨found, hf, (Program.compile_of_imports hs hf).trans h⟩
  · intro t document directives ht hd hm
    exact importTargets_eq_requests (hs t ht) hd hm

/-- An end tag passes over a start tag that declares nothing, and an import follows. -/
def passedOver : TemplateSource :=
  ⟨"<div><br></div><p metal:import=\"lib.pt\" metal:use-macro=\"macros/m\"/>", none⟩

theorem reaches_passedOver {t : TemplateSource} (h : Reaches libraryStore passedOver t) :
    t = passedOver ∨ t = ⟨libraryText, some "lib.pt"⟩ := by
  induction h with
  | self => exact .inl rfl
  | imported _ hi hm htext ih =>
    rcases ih with rfl | rfl
    · have htargets : importTargets passedOver = .ok ["lib.pt"] := by decide +kernel
      rw [htargets] at hi
      cases hi
      obtain rfl := List.mem_singleton.1 hm
      have hlib : libraryStore.template "lib.pt" = .ok libraryText := by decide +kernel
      rw [hlib] at htext
      cases htext
      exact .inr rfl
    · have htargets : importTargets ⟨libraryText, some "lib.pt"⟩ = .ok [] := by decide +kernel
      rw [htargets] at hi
      cases hi
      cases hm

theorem compile_eq_snapshot_passedOver : ∃ program found,
    Program.compile libraryStore .markup passedOver = .ok program ∧
    TemplateMode.markup.imports libraryStore passedOver = .ok found ∧
    Program.compile (snapshot found) .markup passedOver = .ok program := by
  have hs : AllInStep libraryStore passedOver := by
    intro t ht
    rcases reaches_passedOver ht with rfl | rfl
    · exact inStep_of_undeclared (by decide +kernel)
    · exact inStep_of_undeclared (by decide +kernel)
  have hc : (Program.compile libraryStore .markup passedOver).toOption.isSome := by decide +kernel
  cases hp : Program.compile libraryStore .markup passedOver with
  | error fault => rw [hp] at hc; cases hc
  | ok program =>
    obtain ⟨found, hf, hsnapshot⟩ := (compile_eq_snapshot hs).1 program hp
    exact ⟨program, found, rfl, hf, hsnapshot⟩

/-- The end tag passes over a start tag, and the scan stays in the scope where `metal` means something
else; the tree builder has left it. -/
def strayScope : TemplateSource :=
  ⟨"<div xmlns:metal=\"urn:x\"><br></div><p metal:import=\"lib.pt\"/>", none⟩

/-- The tree imports what the scan has not found, so the snapshot misses it. -/
theorem compile_ne_snapshot : ¬∀ (P : ResourceProvider) (source : TemplateSource) (program : Program),
    Program.compile P .markup source = .ok program → ∃ found,
      TemplateMode.markup.imports P source = .ok found ∧
        Program.compile (snapshot found) .markup source = .ok program := by
  intro h
  have hc : (Program.compile libraryStore .markup strayScope).toOption.isSome := by decide +kernel
  have hnone : TemplateMode.markup.imports libraryStore strayScope = .ok [] := by decide +kernel
  have hmissed : (Program.compile (snapshot []) .markup strayScope).toOption.isNone := by decide +kernel
  cases hp : Program.compile libraryStore .markup strayScope with
  | error fault => rw [hp] at hc; cases hc
  | ok program =>
    obtain ⟨found, hf, hsnapshot⟩ := h libraryStore strayScope program hp
    rw [hnone] at hf
    cases hf
    rw [hsnapshot] at hmissed
    cases hmissed

end MarkupTemplate
