import MarkupTemplate.Import.Closure
import MarkupTemplate.Proofs.Results
import MarkupTemplate.Proofs.Text.Utf8
import MarkupTemplate.Proofs.Value.Fields

/-!
# The texts of a closure

A scan only adds to what has been found (`ImportScan.follow_extends`). Two scans of one template, with two
providers, that come to find the same texts therefore meet the same templates, one after another: each
text found tells which imports are followed next (`importClosure_eq_of_texts`).

A closure holds the templates as their provider gives them (`importClosure_serves`). A snapshot of templates
that all come from one provider gives each of them again (`Serves.snapshot`): of entries with one path it
does not matter which one stays, and the octets that are kept are read back as the text.
-/

/-! ## The texts determine a closure -/

namespace MarkupTemplate

namespace ImportScan

/-- The texts found, in order. -/
def texts (scan : ImportScan) : List String :=
  scan.found.map ImportedSource.text

/-- How a scan goes on with the imports of a template. -/
abbrev Follower := TemplateSource → ImportScan → Except TemplateFault ImportScan

variable {P Q : ResourceProvider} {f g : Follower} {scan s t : ImportScan} {texts : List String}

/-- What has been found stays. -/
def Extends (f : Follower) : Prop :=
  ∀ {source scan s}, f source scan = .ok s → scan.found <+: s.found

/-- Scans that find the first of some texts are the same. -/
def Determined (f g : Follower) : Prop :=
  ∀ {source scan s t texts}, f source scan = .ok s → g source scan = .ok t →
    s.texts <+: texts → t.texts <+: texts → s = t

/-- A target that is met again, or whose text is found before its imports are followed. -/
theorem visit_ok {target : String} (h : visit P f scan target = .ok s) :
    scan.visited.contains target ∧ s = scan ∨
      ¬scan.visited.contains target ∧ ∃ text, P.template target = .ok text ∧
        f ⟨text, some target⟩ ⟨target :: scan.visited, scan.found ++ [⟨target, text⟩]⟩ = .ok s := by
  unfold visit at h
  split at h
  · rename_i hc
    cases h
    exact .inl ⟨hc, rfl⟩
  · rename_i hc
    obtain ⟨text, ht, h⟩ := bind_eq_ok.1 h
    exact .inr ⟨hc, text, ht, h⟩

theorem visit_extends (hf : Extends f) {target : String} (h : visit P f scan target = .ok s) :
    scan.found <+: s.found := by
  obtain ⟨-, rfl⟩ | ⟨-, text, -, h⟩ := visit_ok h
  · exact List.prefix_refl _
  · exact (List.prefix_append ..).trans (hf h)

theorem visitAll_extends (hf : Extends f) {targets : List String}
    (h : targets.foldlM (visit P f) scan = .ok s) : scan.found <+: s.found :=
  foldlM_keeps (P := fun s => scan.found <+: s.found)
    (fun _ _ _ _ hs hv => hs.trans (visit_extends hf hv)) (List.prefix_refl _) h

theorem follow_extends : ∀ depth, Extends (follow P depth)
  | 0, _, _, _, h => by cases h
  | depth + 1, _, _, _, h => by
    obtain ⟨targets, -, h⟩ := bind_eq_ok.1 h
    exact visitAll_extends (follow_extends depth) h

theorem visit_determined (hf : Extends f) (hg : Extends g) (h : Determined f g) {target : String}
    (hs : visit P f scan target = .ok s) (ht : visit Q g scan target = .ok t)
    (hst : s.texts <+: texts) (htt : t.texts <+: texts) : s = t := by
  obtain ⟨hc, rfl⟩ | ⟨hc, text, -, hs⟩ := visit_ok hs
  · obtain ⟨-, rfl⟩ | ⟨hc', -⟩ := visit_ok ht
    · rfl
    · exact absurd hc hc'
  · obtain ⟨hc', -⟩ | ⟨-, other, -, ht⟩ := visit_ok ht
    · exact absurd hc' hc
    · have hp := ((hf hs).map ImportedSource.text).trans hst
      have hq := ((hg ht).map ImportedSource.text).trans htt
      simp only [List.map_append, List.map_cons, List.map_nil] at hp hq
      -- the text found here stands at the same place of `texts` in both scans
      have hl := (List.prefix_of_prefix_length_le hp hq (by simp)).eq_of_length (by simp)
      obtain rfl : text = other := by simpa using hl
      exact h hs ht hst htt

theorem visitAll_determined (hf : Extends f) (hg : Extends g) (h : Determined f g) :
    ∀ {targets : List String} {scan : ImportScan}, targets.foldlM (visit P f) scan = .ok s →
      targets.foldlM (visit Q g) scan = .ok t → s.texts <+: texts → t.texts <+: texts → s = t
  | [], _, hs, ht, _, _ => by
    cases hs
    cases ht
    rfl
  | _ :: _, _, hs, ht, hst, htt => by
    rw [List.foldlM_cons] at hs ht
    obtain ⟨s', hs', hs⟩ := bind_eq_ok.1 hs
    obtain ⟨t', ht', ht⟩ := bind_eq_ok.1 ht
    obtain rfl := visit_determined hf hg h hs' ht'
      (((visitAll_extends hf hs).map ImportedSource.text).trans hst)
      (((visitAll_extends hg ht).map ImportedSource.text).trans htt)
    exact visitAll_determined hf hg h hs ht hst htt

theorem follow_determined : ∀ depth, Determined (follow P depth) (follow Q depth)
  | 0, _, _, _, _, _, hs, _, _, _ => by cases hs
  | depth + 1, _, _, _, _, _, hs, ht, hst, htt => by
    obtain ⟨targets, hp, hs⟩ := bind_eq_ok.1 hs
    obtain ⟨targets', hq, ht⟩ := bind_eq_ok.1 ht
    obtain rfl : targets = targets' := by
      rw [hp] at hq
      exact Except.ok.inj hq
    exact visitAll_determined (follow_extends depth) (follow_extends depth) (follow_determined depth)
      hs ht hst htt

end ImportScan

/-- Closures of one template with the same texts are the same, whatever the providers. -/
theorem importClosure_eq_of_texts {P Q : ResourceProvider} {source : TemplateSource}
    {found other : List ImportedSource} (hp : importClosure P source = .ok found)
    (hq : importClosure Q source = .ok other)
    (h : found.map ImportedSource.text = other.map ImportedSource.text) : found = other := by
  obtain ⟨s, hs, hp⟩ := bind_eq_ok.1 hp
  obtain ⟨t, ht, hq⟩ := bind_eq_ok.1 hq
  cases hp
  cases hq
  have htexts : s.texts = t.texts := h
  have hst : s.texts <+: t.texts := htexts ▸ List.prefix_refl s.texts
  rw [ImportScan.follow_determined _ hs ht hst (List.prefix_refl _)]

end MarkupTemplate

/-! ## What a snapshot gives -/

namespace MarkupTemplate

/-! ### Templates that a provider gives -/

namespace ResourceProvider

variable {P : ResourceProvider} {found : List ImportedSource} {path text : String}

/-- The provider gives each template that has been found. -/
def Serves (P : ResourceProvider) (found : List ImportedSource) : Prop :=
  ∀ i ∈ found, P.template i.path = .ok i.text

theorem template_of_load (h : P.load path = .ok (Text.encodeUtf8 text)) : P.template path = .ok text := by
  have hload : P.loadText path = .ok text := by
    refine bind_eq_ok.2 ⟨_, h, ?_⟩
    rw [Text.decodeUtf8_encodeUtf8]
  rw [template, hload]

theorem Serves.of_prefix {more : List ImportedSource} (h : P.Serves more) (hp : found <+: more) :
    P.Serves found :=
  fun i hi => h i (hp.subset hi)

theorem Serves.snapshot (h : P.Serves found) : (snapshot found).Serves found := by
  intro i hi
  have hget : Fields.get? (MemoryStore.ofTexts (found.map fun i => (i.path, i.text))) i.path =
      some (Text.encodeUtf8 i.text) := by
    rw [MemoryStore.ofTexts, List.map_map]
    refine Fields.get?_ofList (fun e he hpath => ?_) ⟨_, List.mem_map_of_mem hi, rfl⟩
    obtain ⟨j, hj, rfl⟩ := List.mem_map.1 he
    have hj := h j hj
    rw [show j.path = i.path from hpath, h i hi] at hj
    exact congrArg Text.encodeUtf8 (Except.ok.inj hj).symm
  refine template_of_load ?_
  simp only [MarkupTemplate.snapshot, MemoryStore.provider, MemoryStore.find?, hget]

end ResourceProvider

/-! ### Closures -/

namespace ImportScan

variable {P : ResourceProvider} {f : Follower} {scan s : ImportScan}

/-- All that is found comes from the provider. -/
def KeepsServing (P : ResourceProvider) (f : Follower) : Prop :=
  ∀ {source scan s}, P.Serves scan.found → f source scan = .ok s → P.Serves s.found

theorem visit_serves (hf : KeepsServing P f) {target : String} (hs : P.Serves scan.found)
    (h : visit P f scan target = .ok s) : P.Serves s.found := by
  obtain ⟨-, rfl⟩ | ⟨-, text, ht, h⟩ := visit_ok h
  · exact hs
  · refine hf (fun i hi => ?_) h
    rcases List.mem_append.1 hi with hi | hi
    · exact hs i hi
    · rw [List.mem_singleton.1 hi]
      exact ht

theorem follow_serves : ∀ depth, KeepsServing P (follow P depth)
  | 0, _, _, _, _, h => by cases h
  | depth + 1, _, _, _, hs, h => by
    obtain ⟨targets, -, h⟩ := bind_eq_ok.1 h
    exact foldlM_keeps (P := fun s => P.Serves s.found)
      (fun _ _ _ _ hs hv => visit_serves (follow_serves depth) hs hv) hs h

end ImportScan

theorem importClosure_serves {P : ResourceProvider} {source : TemplateSource}
    {found : List ImportedSource} (h : importClosure P source = .ok found) : P.Serves found := by
  obtain ⟨s, hs, h⟩ := bind_eq_ok.1 h
  cases h
  exact ImportScan.follow_serves _ (fun _ hi => absurd hi List.not_mem_nil) hs

end MarkupTemplate
