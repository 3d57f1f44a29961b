import Mathlib.Data.List.Nodup
import MarkupTemplate.Proofs.Import.Closure

/-!
# What a provider is asked for

A provider is a function, so a result does not show how often it was asked. The scan of imports is therefore
written once more over any monad (`ImportScan.followIn`), where templates are had in one way only, by `ask`.
With the provider itself it is the scan (`ImportScan.followIn_template`); with `ResourceProvider.ask`, which
notes each path before it asks for it, it gives the same result and what has been asked for
(`ImportScan.followIn_notes`).
-/

namespace MarkupTemplate

/-- A computation that can fail and notes the paths that it asks for; they stay noted when it fails. -/
abbrev Asking (α : Type) := ExceptT TemplateFault (StateM (List String)) α

/-- Notes a path and asks for the template there. -/
def ResourceProvider.ask (provider : ResourceProvider) (path : String) : Asking String := do
  modify (· ++ [path])
  liftM (provider.template path)

namespace Asking

variable {α β : Type}

/-- The result, and all that has been asked for if `asked` had been before. -/
def after (x : Asking α) (asked : List String) : Except TemplateFault α × List String :=
  Id.run (x.run.run asked)

theorem after_bind_ok {x : Asking α} {f : α → Asking β} {a : α} {asked more : List String}
    (h : x.after asked = (.ok a, more)) : (x >>= f).after asked = (f a).after more := by
  have h : x.run.run asked = (.ok a, more) := h
  show ExceptT.bindCont f (x.run.run asked).1 (x.run.run asked).2 = _
  rw [h]
  rfl

theorem after_bind_error {x : Asking α} {f : α → Asking β} {fault : TemplateFault} {asked more : List String}
    (h : x.after asked = (.error fault, more)) : (x >>= f).after asked = (.error fault, more) := by
  have h : x.run.run asked = (.error fault, more) := h
  show ExceptT.bindCont f (x.run.run asked).1 (x.run.run asked).2 = _
  rw [h]
  rfl

/-- The computation gives the result, has asked for no path twice, and what it gives and what has been asked
for are as `Q` says. -/
def Notes (x : Asking α) (r : Except TemplateFault α) (asked : List String) (Q : α → List String → Prop) :
    Prop :=
  ∃ more, x.after asked = (r, more) ∧ more.Nodup ∧ ∀ a, r = .ok a → Q a more

variable {asked : List String} {Q : α → List String → Prop} {R : β → List String → Prop}

theorem Notes.pure {a : α} (hn : asked.Nodup) (h : Q a asked) : Notes (pure a) (.ok a) asked Q :=
  ⟨asked, rfl, hn, fun _ ha => Except.ok.inj ha ▸ h⟩

theorem Notes.lift {r : Except TemplateFault α} (hn : asked.Nodup) (h : ∀ a, r = .ok a → Q a asked) :
    Notes (liftM r) r asked Q :=
  ⟨asked, rfl, hn, h⟩

theorem Notes.fault {fault : TemplateFault} (hn : asked.Nodup) :
    Notes (liftM (.error fault : Except TemplateFault α)) (.error fault) asked Q :=
  .lift hn fun _ h => by cases h

theorem Notes.ask {P : ResourceProvider} {path : String} {Q : String → List String → Prop}
    (hn : asked.Nodup) (hp : path ∉ asked) (h : ∀ text, P.template path = .ok text → Q text (asked ++ [path])) :
    Notes (P.ask path) (P.template path) asked Q := by
  refine ⟨asked ++ [path], rfl, ?_, h⟩
  exact List.nodup_append.2 ⟨hn, List.nodup_singleton _, fun a ha b hb hab =>
    hp (List.mem_singleton.1 hb ▸ hab ▸ ha)⟩

theorem Notes.bind {x : Asking α} {r : Except TemplateFault α} {f : α → Asking β}
    {g : α → Except TemplateFault β} (hx : Notes x r asked Q)
    (hf : ∀ a more, r = .ok a → more.Nodup → Q a more → Notes (f a) (g a) more R) :
    Notes (x >>= f) (r >>= g) asked R := by
  obtain ⟨more, hx, hn, hq⟩ := hx
  cases r with
  | error fault => exact ⟨more, after_bind_error hx, hn, nofun⟩
  | ok a =>
    obtain ⟨all, hfa, hall, hr⟩ := hf a more rfl hn (hq a rfl)
    exact ⟨all, (after_bind_ok hx).trans hfa, hall, hr⟩

theorem Notes.foldlM {f : β → α → Asking β} {g : β → α → Except TemplateFault β} {as : List α} {b : β}
    (step : ∀ a b more, more.Nodup → R b more → Notes (f b a) (g b a) more R) (hn : asked.Nodup)
    (hb : R b asked) : Notes (as.foldlM f b) (as.foldlM g b) asked R := by
  induction as generalizing b asked with
  | nil => exact .pure hn hb
  | cons a as ih =>
    rw [List.foldlM_cons, List.foldlM_cons]
    exact (step a b asked hn hb).bind fun c more _ hmore hc => ih hmore hc

end Asking

/-! ### The scan of imports -/

namespace ImportScan

section Definitions

variable {m : Type → Type} [Monad m] [MonadLiftT (Except TemplateFault) m]

/-- `visit`, where templates are had by `ask`. -/
def visitIn (ask : String → m String) (follow : TemplateSource → ImportScan → m ImportScan)
    (scan : ImportScan) (target : String) : m ImportScan := do
  if scan.visited.contains target then return scan
  let text ← ask target
  follow ⟨text, some target⟩ ⟨target :: scan.visited, scan.found ++ [⟨target, text⟩]⟩

/-- `follow`, where templates are had by `ask`. -/
def followIn (ask : String → m String) : Nat → TemplateSource → ImportScan → m ImportScan
  | 0, _, _ => liftM (.error (.config .importTooDeep) : Except TemplateFault ImportScan)
  | depth + 1, source, scan => do
    let targets ← liftM (importTargets source)
    targets.foldlM (visitIn ask (followIn ask depth)) scan

end Definitions

variable {P : ResourceProvider}

theorem followIn_template : ∀ depth source scan,
    followIn P.template depth source scan = follow P depth source scan
  | 0, _, _ => rfl
  | depth + 1, source, scan => by
    have hfollow : followIn P.template depth = follow P depth := by
      funext source scan
      exact followIn_template depth source scan
    rw [followIn, hfollow]
    rfl

/-- What has been asked for is what has been found, and none of it is asked for again. -/
def HasAsked (scan : ImportScan) (asked : List String) : Prop :=
  asked = scan.found.map ImportedSource.path ∧ ∀ path ∈ asked, path ∈ scan.visited

theorem visitIn_notes {f : TemplateSource → ImportScan → Asking ImportScan} {g : Follower}
    (hf : ∀ source scan asked, asked.Nodup → HasAsked scan asked →
      Asking.Notes (f source scan) (g source scan) asked HasAsked)
    (target : String) (scan : ImportScan) (asked : List String) (hn : asked.Nodup) (h : HasAsked scan asked) :
    Asking.Notes (visitIn P.ask f scan target) (visit P g scan target) asked HasAsked := by
  unfold visitIn visit
  split
  · exact .pure hn h
  · rename_i hnew
    have hnew : target ∉ asked := fun hm => hnew (List.contains_iff_mem.2 (h.2 target hm))
    refine (Asking.Notes.ask (Q := fun _ more => more = asked ++ [target]) hn hnew
      fun _ _ => rfl).bind fun text more _ hmore hq => hf _ _ _ hmore ?_
    subst hq
    refine ⟨by rw [h.1, List.map_append]; rfl, fun path hp => ?_⟩
    rcases List.mem_append.1 hp with hp | hp
    · exact List.mem_cons_of_mem _ (h.2 path hp)
    · rw [List.mem_singleton.1 hp]
      exact List.mem_cons_self

theorem followIn_notes : ∀ depth source scan asked, asked.Nodup → HasAsked scan asked →
    Asking.Notes (followIn P.ask depth source scan) (follow P depth source scan) asked HasAsked
  | 0, _, _, _, hn, _ => .fault hn
  | depth + 1, source, scan, asked, hn, h => by
    refine (Asking.Notes.lift (Q := fun _ more => more = asked) hn fun _ _ => rfl).bind
      fun targets more _ hmore hq => ?_
    subst hq
    exact .foldlM (visitIn_notes (followIn_notes depth)) hmore h

end ImportScan

/-- `importClosure`, where templates are had by `ask`. -/
def importClosureIn {m : Type → Type} [Monad m] [MonadLiftT (Except TemplateFault) m]
    (ask : String → m String) (source : TemplateSource) : m (List ImportedSource) := do
  let scan ← ImportScan.followIn ask (maxImportDepth + 1) source ⟨source.path.toList, []⟩
  return scan.found

theorem importClosureIn_template (P : ResourceProvider) (source : TemplateSource) :
    importClosureIn P.template source = importClosure P source := by
  rw [importClosureIn, ImportScan.followIn_template]
  rfl

theorem importClosureIn_notes (P : ResourceProvider) (source : TemplateSource) :
    Asking.Notes (importClosureIn P.ask source) (importClosure P source) []
      fun found asked => asked = found.map ImportedSource.path := by
  refine (ImportScan.followIn_notes _ source _ [] List.nodup_nil ⟨rfl, nofun⟩).bind
    fun scan more _ hmore h => .pure hmore h.1

end MarkupTemplate
