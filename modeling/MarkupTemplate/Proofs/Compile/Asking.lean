import MarkupTemplate.Proofs.Compile.Registration
import MarkupTemplate.Proofs.Import.Asking

/-!
# What a registration asks for

Registering macros is written once more over any monad, with templates had by `ask` alone, as the scan of
imports is. With the provider itself it is the registration (`ofMainIn_template`). With
`ResourceProvider.ask` it is that too, and notes each path once: those of the units behind the first one, in
their order (`ofMainIn_notes`).
-/

namespace MarkupTemplate.MacroRegistry

section Definitions

variable {m : Type → Type} [Monad m] [MonadLiftT (Except TemplateFault) m]

/-- `registerEntry` with an importer that asks. -/
def registerEntryIn (load : String → Location → MacroRegistry → m (MacroRegistry × Nat))
    (path : Option String) (state : Registration) (entry : Directive.ImportEntry × Location) :
    m Registration := do
  let (r, unit) ← load (resolveUri entry.1.path path) entry.2 state.1
  return (r, state.2.extend entry.1.label ((r.names unit).under ""))

/-- `registerDocument` with an importer that asks. -/
def registerDocumentIn (load : String → Location → MacroRegistry → m (MacroRegistry × Nat))
    (document : Document) (path : Option String) (r : MacroRegistry) : m (MacroRegistry × Nat) := do
  let directives ← liftM (MacroDirectives.ofNodes document.nodes)
  let state ← directives.entries.foldlM (registerEntryIn load path) (r.begin path)
  liftM (nameMacros r.units.length path directives state)

/-- `importUnit`, where templates are had by `ask`. -/
def importUnitIn (ask : String → m String) :
    Nat → List String → String → Location → MacroRegistry → m (MacroRegistry × Nat)
  | 0, _, _, location, _ =>
    liftM (.error (.macros .importTooDeep location) : Except TemplateFault (MacroRegistry × Nat))
  | depth + 1, chain, target, location, r =>
    if chain.contains target then
      liftM (.error (.macros (.circularImport target) location) :
        Except TemplateFault (MacroRegistry × Nat))
    else
      match r.unitAt? target with
      | some unit => pure (r, unit)
      | none => do
        let text ← ask target
        match Document.parse text (some target) with
        | .error fault => liftM (.error (.markup fault) : Except TemplateFault (MacroRegistry × Nat))
        | .ok document =>
          registerDocumentIn (importUnitIn ask depth (target :: chain)) document (some target) r

/-- `ofMain`, where templates are had by `ask`. -/
def ofMainIn (ask : String → m String) (document : Document) (path : Option String) : m MacroRegistry := do
  let (r, _) ← registerDocumentIn (importUnitIn ask maxImportDepth path.toList) document path empty
  return r

end Definitions

variable {P : ResourceProvider} {path main : Option String} {r : MacroRegistry} {document : Document}

/-! ### With the provider -/

theorem registerDocumentIn_eq (load : Importer) (document : Document) (path : Option String)
    (r : MacroRegistry) : registerDocumentIn load document path r = registerDocument load document path r :=
  (registerDocument_eq load document path r).symm

theorem importUnitIn_template : ∀ depth chain target location r,
    importUnitIn P.template depth chain target location r = importUnit P depth chain target location r
  | 0, _, _, _, _ => rfl
  | depth + 1, chain, target, location, r => by
    have hload : importUnitIn P.template depth (target :: chain) = importUnit P depth (target :: chain) := by
      funext other location r
      exact importUnitIn_template depth _ other location r
    rw [importUnitIn, hload, importUnit]
    simp only [registerDocumentIn_eq]
    rfl

theorem ofMainIn_template (P : ResourceProvider) (document : Document) (path : Option String) :
    ofMainIn P.template document path = ofMain P document path := by
  have hload : importUnitIn P.template maxImportDepth path.toList =
      importUnit P maxImportDepth path.toList := by
    funext target location r
    exact importUnitIn_template maxImportDepth _ target location r
  rw [ofMainIn, hload, registerDocumentIn_eq]
  rfl

/-! ### With what is asked for -/

/-- What has been asked for are the paths of the units behind the main template's. -/
def HasAsked (main : Option String) (r : MacroRegistry) (asked : List String) : Prop :=
  r.paths = main :: asked.map some

theorem HasAsked.ask {asked : List String} {target : String} (h : HasAsked main r asked) :
    HasAsked main (r.opened (some target)) (asked ++ [target]) := by
  rw [HasAsked, paths_opened, h, List.map_append]
  rfl

/-- An importer that notes what it asks for. -/
def IsNoted (main : Option String) (f : String → Location → MacroRegistry → Asking (MacroRegistry × Nat))
    (load : Importer) : Prop :=
  ∀ target location r asked, asked.Nodup → HasAsked main r asked →
    Asking.Notes (f target location r) (load target location r) asked fun s => HasAsked main s.1

variable {f : String → Location → MacroRegistry → Asking (MacroRegistry × Nat)} {load : Importer}

theorem registerDocumentIn_notes (hload : IsNoted main f load) (hext : Extends load) {asked : List String}
    (hn : asked.Nodup) (h : HasAsked main (r.opened path) asked) :
    Asking.Notes (registerDocumentIn f document path r) (registerDocument load document path r) asked
      fun s => HasAsked main s.1 := by
  rw [registerDocument_eq]
  unfold registerDocumentIn
  refine (Asking.Notes.lift (Q := fun _ more => more = asked) hn fun _ _ => rfl).bind
    fun directives more _ hmore hq => ?_
  subst hq
  refine (Asking.Notes.foldlM (R := fun state more =>
    (r.begin path).1.paths <+: state.1.paths ∧ HasAsked main state.1 more) ?_ hmore
    ⟨List.prefix_refl _, h⟩).bind fun state all _ hall hs => ?_
  · intro entry state more hmore hs
    refine (hload (resolveUri entry.1.path path) entry.2 state.1 more hmore hs.2).bind
      fun s all hs' hall hasked => .pure hall ⟨?_, hasked⟩
    exact hs.1.trans (hext hs')
  · refine Asking.Notes.lift hall fun s hnamed => ?_
    rw [HasAsked, nameMacros_paths hs.1 hnamed]
    exact hs.2

theorem importUnitIn_notes (depth : Nat) (chain : List String) :
    IsNoted main (importUnitIn P.ask depth chain) (importUnit P depth chain) := by
  induction depth generalizing chain with
  | zero => exact fun _ _ _ _ hn _ => .fault hn
  | succ depth ih =>
    intro target location r asked hn h
    unfold importUnitIn importUnit
    split
    · exact .fault hn
    · cases hknown : r.unitAt? target with
      | some unit => exact .pure hn h
      | none =>
        have hnew : target ∉ asked := by
          intro hm
          refine not_mem_paths hknown ?_
          rw [h]
          exact List.mem_cons_of_mem _ (List.mem_map_of_mem hm)
        refine (Asking.Notes.ask (Q := fun _ more => more = asked ++ [target]) hn hnew
          fun _ _ => rfl).bind fun text more _ hmore hq => ?_
        subst hq
        cases Document.parse text (some target) with
        | error fault => exact .fault hmore
        | ok document =>
          exact registerDocumentIn_notes (ih _) (importUnit_extends depth _) hmore h.ask

theorem ofMainIn_notes (P : ResourceProvider) (document : Document) (path : Option String) :
    Asking.Notes (ofMainIn P.ask document path) (ofMain P document path) [] (HasAsked path) := by
  refine (registerDocumentIn_notes (importUnitIn_notes maxImportDepth path.toList)
    (importUnit_extends maxImportDepth _) List.nodup_nil ?_).bind fun s more _ hmore h => .pure hmore h
  rw [HasAsked, paths_opened]
  rfl

end MarkupTemplate.MacroRegistry
