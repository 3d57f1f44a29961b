import Mathlib.Data.List.Perm.Subperm
import MarkupTemplate.Proofs.Compile.Asking
import MarkupTemplate.Proofs.Compile.Units

/-!
# Circular imports

What is registered imports nothing in circles (`not_transGen_of_acc`, `Compilation.acyclic_of_ofMain`), and
where all templates are valid and chains of imports short, nothing else than a circle keeps the main template
from being registered (`ofMain_iff_acyclic`).
-/

namespace MarkupTemplate

theorem not_transGen_of_acc {α : Type} {next : α → α → Prop} {a : α} (h : Acc (fun b a => next a b) a) :
    ¬Relation.TransGen next a a := by
  intro hcycle
  have hnot : ∀ {b}, Acc (Relation.TransGen fun b a => next a b) b →
      ¬Relation.TransGen (fun b a => next a b) b b := by
    intro b hb
    induction hb with
    | intro b _ ih => exact fun hself => ih b hself hself
  exact hnot h.transGen (Relation.transGen_swap.2 hcycle)

namespace Compilation

open MacroRegistry

variable {c : Compilation} {a : Option String} {r : MacroRegistry}

/-! ### What is registered -/

theorem mem_paths_of_ofMain (h : ofMain c.provider c.document c.path = .ok r) : a ∈ r.paths ↔ c.Leads a := by
  obtain ⟨hr, hmain⟩ := (ofMain_progress c).of_ok h
  refine ⟨hr.leads a, fun hl => ?_⟩
  induction hl with
  | refl => exact hmain
  | tail _ hi ih =>
    obtain ⟨unit, u, hu, rfl⟩ := exists_unit ih
    obtain ⟨document, directives, hunit, -⟩ := hr.units unit u hu List.not_mem_nil
    obtain ⟨entry, he, rfl⟩ := (imports_iff hunit.tree hunit.valid).1 hi
    exact hunit.imported entry he

theorem acyclic_of_ofMain (h : ofMain c.provider c.document c.path = .ok r) :
    ∀ a ∈ r.paths, ¬Relation.TransGen c.Imports a a :=
  fun a ha => not_transGen_of_acc (((ofMain_progress c).of_ok h).1.acyclic a ha List.not_mem_nil)

theorem not_hasCycle_of_ofMain (h : ofMain c.provider c.document c.path = .ok r) : ¬c.HasCycle := by
  rintro ⟨a, hl, hcycle⟩
  exact acyclic_of_ofMain h a ((mem_paths_of_ofMain h).2 hl) hcycle

/-- Each path is asked for once at most. If a template is registered, its imports make no circle, and the
units are the templates that it leads to, each once. If it is regular, it is registered just if no imports
make a circle, and if they do, the fault says so. -/
theorem ofMain_iff_acyclic (c : Compilation) :
    (∃ asked, (ofMainIn c.provider.ask c.document c.path).after [] =
        (ofMain c.provider c.document c.path, asked) ∧ asked.Nodup) ∧
    (∀ r, ofMain c.provider c.document c.path = .ok r →
      r.paths.Nodup ∧ (∀ a, a ∈ r.paths ↔ c.Leads a) ∧ ∀ a ∈ r.paths, ¬Relation.TransGen c.Imports a a) ∧
    (c.IsRegular →
      ((∃ target location, ofMain c.provider c.document c.path =
        .error (.macros (.circularImport target) location)) ↔ c.HasCycle) ∧
      ((∃ r, ofMain c.provider c.document c.path = .ok r) ↔ ¬c.HasCycle)) := by
  refine ⟨?_, fun r hr => ⟨((ofMain_progress c).of_ok hr).1.distinct, fun a => mem_paths_of_ofMain hr,
    acyclic_of_ofMain hr⟩, fun hregular => ?_⟩
  · obtain ⟨asked, hrun, hnodup, -⟩ := ofMainIn_notes c.provider c.document c.path
    exact ⟨asked, hrun, hnodup⟩
  · cases hm : ofMain c.provider c.document c.path with
    | ok r =>
      have hacyclic := not_hasCycle_of_ofMain hm
      exact ⟨⟨nofun, fun h => absurd h hacyclic⟩, fun _ => hacyclic, fun _ => ⟨r, rfl⟩⟩
    | error fault =>
      obtain ⟨hcycle, target, location, rfl⟩ := (ofMain_progress c).of_error hm hregular
      exact ⟨⟨fun _ => hcycle, fun _ => ⟨target, location, rfl⟩⟩, nofun, fun h => absurd hcycle h⟩

/-! ### Regular compilations -/

/-- The tree of the template at a path. -/
def template? (c : Compilation) (a : Option String) : Option Document :=
  if a = c.path then some c.document
  else a.bind fun target => (c.provider.template target).toOption.bind fun text =>
    (Document.parse text (some target)).toOption

/-- What a template imports, and the names of its macros, as its directives say. -/
def listed? (c : Compilation) (a : Option String) : Option (List String × List String) :=
  (c.template? a).bind fun document => (MacroDirectives.ofNodes document.nodes).toOption.map fun directives =>
    (directives.requests a, directives.macros.map Prod.fst)

theorem treeAt_of_template? {document : Document} (h : c.template? a = some document) :
    c.TreeAt a document := by
  unfold template? at h
  split at h
  · next hmain =>
    cases h
    exact hmain ▸ .main
  · next hne =>
    obtain ⟨target, ha, hread⟩ := Option.bind_eq_some_iff.1 h
    obtain ⟨text, htext, hparse⟩ := Option.bind_eq_some_iff.1 hread
    cases ha
    exact .loaded (Ne.symm hne) (eq_ok_of_toOption htext) (eq_ok_of_toOption hparse)

theorem of_listed? {targets names : List String} (h : c.listed? a = some (targets, names)) :
    (∀ b, c.Imports a b ↔ ∃ target ∈ targets, b = some target) ∧
      ("" ∉ names → names.Nodup → c.IsValid a) := by
  obtain ⟨document, hdocument, h⟩ := Option.bind_eq_some_iff.1 h
  obtain ⟨directives, hd, h⟩ := Option.map_eq_some_iff.1 h
  have ht := treeAt_of_template? hdocument
  have hd := eq_ok_of_toOption hd
  cases h
  refine ⟨fun b => ⟨?_, ?_⟩, fun hne hn => ⟨document, directives, ht, hd, ?_, hn⟩⟩
  · rintro ⟨document', directives', ht', hd', h⟩
    cases ht.unique ht'
    cases hd.symm.trans hd'
    exact h
  · exact fun h => ⟨document, directives, ht, hd, h⟩
  · intro m hm heq
    exact hne (heq ▸ List.mem_map_of_mem hm)

/-- A compilation is regular if a list of its templates, with what they import and define, leads out of itself
nowhere and is no longer than imports may follow each other. -/
theorem isRegular_of_listed (all : List (Option String × List String × List String))
    (hp : c.path ∈ all.map Prod.fst) (hall : ∀ t ∈ all, c.listed? t.1 = some t.2)
    (hnames : ∀ t ∈ all, "" ∉ t.2.2 ∧ t.2.2.Nodup)
    (hclosed : ∀ t ∈ all, ∀ target ∈ t.2.1, some target ∈ all.map Prod.fst)
    (hl : all.length ≤ maxImportDepth) : c.IsRegular := by
  have hstep : ∀ a ∈ all.map Prod.fst, ∀ b, c.Imports a b → b ∈ all.map Prod.fst := by
    intro a ha b hi
    obtain ⟨t, ht, rfl⟩ := List.mem_map.1 ha
    obtain ⟨target, hm, rfl⟩ := ((of_listed? (hall t ht)).1 b).1 hi
    exact hclosed t ht target hm
  have hleads : ∀ a, c.Leads a → a ∈ all.map Prod.fst := by
    intro a ha
    induction ha with
    | refl => exact hp
    | tail _ hi ih => exact hstep _ ih _ hi
  have hchain : ∀ {chain : List (Option String)} {a}, a ∈ all.map Prod.fst →
      (a :: chain).IsChain c.Imports → a :: chain ⊆ all.map Prod.fst := by
    intro chain
    induction chain with
    | nil => exact fun ha _ => List.cons_subset.2 ⟨ha, List.nil_subset _⟩
    | cons b chain ih =>
      intro a ha h
      obtain ⟨hi, h⟩ := List.isChain_cons_cons.1 h
      exact List.cons_subset.2 ⟨ha, ih (hstep a ha b hi) h⟩
  refine ⟨fun a ha => ?_, fun chain h hn => ?_⟩
  · obtain ⟨t, ht, rfl⟩ := List.mem_map.1 (hleads a ha)
    exact (of_listed? (hall t ht)).2 (hnames t ht).1 (hnames t ht).2
  · have hle := (List.subperm_of_subset hn (hchain hp h)).length_le
    rw [List.length_map] at hle
    exact Nat.lt_of_lt_of_le hle hl

/-- A template imports two that both import a third one, one of them twice. -/
def diamond : Compilation where
  provider := (MemoryStore.ofTexts [("a", "<p metal:import=\"c\"/>"), ("b", "<p metal:import=\"x:c;c\"/>"),
    ("c", "<p/>")]).provider
  document := ((Document.parse "<p metal:import=\"a;b;y:a\"/>" none).toOption).getD default
  path := none

/-- A template imports one that imports it. -/
def circle : Compilation where
  provider := (MemoryStore.ofTexts [("a", "<p metal:import=\"./m\"/>")]).provider
  document := ((Document.parse "<p metal:import=\"a\"/>" (some "m")).toOption).getD default
  path := some "m"

theorem isRegular_diamond : diamond.IsRegular := by
  refine isRegular_of_listed [(none, ["a", "b", "a"], []), (some "a", ["c"], []),
    (some "b", ["c", "c"], []), (some "c", [], [])] ?_ ?_ ?_ ?_ ?_ <;> decide +kernel

theorem listed_circle : circle.listed? (some "m") = some (["a"], []) ∧
    circle.listed? (some "a") = some (["m"], []) := by
  decide +kernel

theorem isRegular_circle : circle.IsRegular := by
  refine isRegular_of_listed [(some "m", ["a"], []), (some "a", ["m"], [])] ?_ ?_ ?_ ?_ ?_ <;>
    decide +kernel

theorem hasCycle_circle : circle.HasCycle := by
  have hthere : circle.Imports (some "m") (some "a") := ((of_listed? listed_circle.1).1 _).2 ⟨"a", by simp, rfl⟩
  have hback : circle.Imports (some "a") (some "m") := ((of_listed? listed_circle.2).1 _).2 ⟨"m", by simp, rfl⟩
  exact ⟨some "m", .refl, .head hthere (.single hback)⟩

theorem ofMain_diamond :
    (ofMain diamond.provider diamond.document diamond.path).toOption.map MacroRegistry.paths =
      some [none, some "a", some "c", some "b"] := by
  decide +kernel

/-- No circle is seen where there is none, and where there is one it is. -/
theorem ofMain_iff_acyclic_diamond :
    diamond.IsRegular ∧ ¬diamond.HasCycle ∧
    (∃ r, ofMain diamond.provider diamond.document diamond.path = .ok r ∧
      r.paths = [none, some "a", some "c", some "b"] ∧ r.paths.Nodup) ∧
    circle.IsRegular ∧ circle.HasCycle ∧ ∃ target location,
      ofMain circle.provider circle.document circle.path =
        .error (.macros (.circularImport target) location) := by
  obtain ⟨r, hr, hpaths⟩ := Option.map_eq_some_iff.1 ofMain_diamond
  have hr := eq_ok_of_toOption hr
  obtain ⟨-, hok, hregular⟩ := ofMain_iff_acyclic diamond
  refine ⟨isRegular_diamond, (hregular isRegular_diamond).2.1 ⟨r, hr⟩, ⟨r, hr, hpaths, (hok r hr).1⟩,
    isRegular_circle, hasCycle_circle, ?_⟩
  exact ((ofMain_iff_acyclic circle).2.2 isRegular_circle).1.2 hasCycle_circle

end Compilation

end MarkupTemplate
