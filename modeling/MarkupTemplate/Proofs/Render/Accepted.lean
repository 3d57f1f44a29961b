import MarkupTemplate.Proofs.Render.Stacks
import MarkupTemplate.Proofs.Render.Values

/-!
# Running accepted programs

While an accepted program runs, the handles in its variables lead to its macros and what is filled in are its own
blocks (`RenderState.IsSound`). Every operation keeps that, also when it fails, and none fails for host code
that cannot be evaluated or a handle that leads nowhere (`operation_safe`). So all that is executed are
operations of the program in sound states (`Executes.sound`).
-/

namespace MarkupTemplate

open Value (HandlesIn)

/-- Handles in the variables have a property, and what is filled in are blocks of the program. -/
structure RenderState.IsSound (s : RenderState) (program : Program) (K : MacroHandle → Prop) : Prop where
  scope : s.scope.HandlesIn K
  calls : s.IsOf program

/-- A run ends in a state with a property, and if it fails, then not for an internal cause. -/
inductive Ends (I : RenderState → Prop) : Outcome RenderState Unit → Prop
  | done {t : RenderState} (h : I t) : Ends I (.done () t)
  | failed {fault : RenderFault} {t : RenderState} (hf : ¬fault.IsInternal) (h : I t) :
      Ends I (.failed fault t)
  | exhausted : Ends I .exhausted

/-- A run from a sound state ends in one. -/
def Safe (program : Program) (K : MacroHandle → Prop) (x : Run RenderState Unit) : Prop :=
  ∀ s : RenderState, s.IsSound program K → Ends (fun t => t.IsSound program K) (x.run s)

namespace RenderState.IsSound

variable {s : RenderState} {program : Program} {K : MacroHandle → Prop}

theorem withScope (h : s.IsSound program K) {σ : Scope} (hσ : σ.HandlesIn K) :
    (s.withScope σ).IsSound program K :=
  ⟨hσ, h.calls⟩

theorem enter (h : s.IsSound program K) {fills : List (String × Block)}
    (hf : ∀ fill ∈ fills, fill.2 ∈ program.blocks) : (s.enter fills).IsSound program K := by
  refine ⟨h.scope, fun call hc => ?_⟩
  rcases Array.mem_push.1 hc with hc | rfl
  · exact h.calls call hc
  · exact hf

theorem leave (h : s.IsSound program K) (caller : Option Nat) : (s.leave caller).IsSound program K :=
  ⟨h.scope, fun call hc => by
    have hc : call ∈ s.invocations.pop := hc
    rw [← Array.mem_toList_iff, Array.toList_pop] at hc
    exact h.calls call (Array.mem_toList_iff.1 (List.dropLast_subset _ hc))⟩

theorem within (h : s.IsSound program K) (call : Option Nat) : (s.within call).IsSound program K :=
  ⟨h.scope, h.calls⟩

theorem backTo (h : s.IsSound program K) (m : RenderMark) : (s.backTo m).IsSound program K := by
  refine ⟨h.scope.truncate m.depth, fun call hc => h.calls call ?_⟩
  have hc : call ∈ s.invocations.take m.calls := hc
  rw [← Array.mem_toList_iff, Array.take_eq_extract, Array.toList_extract, List.extract_eq_take_drop] at hc
  exact Array.mem_toList_iff.1 (List.mem_of_mem_take hc)

theorem fill (h : s.IsSound program K) {name : String} {body : Block} {caller : Option Nat}
    (hf : s.fill? name = some (body, caller)) : body ∈ program.blocks := by
  obtain ⟨i, -, hf⟩ := Option.bind_eq_some_iff.1 hf
  obtain ⟨call, hi, hf⟩ := Option.bind_eq_some_iff.1 hf
  obtain ⟨b, hl, hf⟩ := Option.bind_eq_some_iff.1 hf
  cases hf
  exact h.calls call (Array.mem_of_getElem? hi) _ (Fields.mem_of_get? hl)

end RenderState.IsSound

namespace Safe

variable {program : Program} {K : MacroHandle → Prop} {x y : Run RenderState Unit}

theorem nothing : Safe program K (pure ()) := fun _ hs => .done hs

theorem change {f : RenderState → RenderState}
    (h : ∀ s : RenderState, s.IsSound program K → (f s).IsSound program K) :
    Safe program K (Run.modify f) := fun s hs => .done (h s hs)

theorem write (piece : String) : Safe program K (Run.write piece) := change fun _ hs => ⟨hs.scope, hs.calls⟩

theorem append (hx : Safe program K x) (hy : Safe program K y) : Safe program K (do x; y) := by
  intro s hs
  have h := hx s hs
  generalize ho : x.run s = o at h
  cases h with
  | done ht =>
    rw [Run.run_bind_done ho]
    exact hy _ ht
  | failed hf ht =>
    rw [Run.run_bind_failed ho]
    exact .failed hf ht
  | exhausted =>
    rw [Run.run_bind_exhausted ho]
    exact .exhausted

theorem read {α : Type} {f : Scope → Except RenderFault α} {k : α → Run RenderState Unit} {Q : α → Prop}
    (hf : ∀ σ : Scope, σ.HandlesIn K → Gives Q (fun fault => ¬fault.IsInternal) (f σ))
    (hk : ∀ a, Q a → Safe program K (k a)) : Safe program K (Run.readScope f >>= k) := by
  intro s hs
  have h := hf s.scope hs.scope
  cases ha : f s.scope with
  | ok a =>
    have hr : (Run.readScope f).run s = .done a s := Run.run_read_ok ha
    rw [Run.run_bind_done hr]
    exact hk a (h.of_ok ha) s hs
  | error fault =>
    have hr : (Run.readScope f).run s = .failed fault s := Run.run_read_error ha
    rw [Run.run_bind_failed hr]
    exact .failed (h.of_error ha) hs

theorem inFrame (hx : Safe program K x) : Safe program K (Run.inFrame x) :=
  (change fun _ hs => hs.withScope hs.scope.push).append
    (hx.append (change fun _ hs => hs.withScope hs.scope.pop))

theorem repeatFrom (hx : Safe program K x) (name : String) {loops : Fields Value}
    (hl : Frame.HandlesIn K loops) (length : Nat) : ∀ (items : List Value) (index : Nat),
    (∀ item ∈ items, item.HandlesIn K) →
    Safe program K (RenderContext.repeatFrom name loops length x index items)
  | [], _, _ => nothing
  | item :: items, index, hi => by
    have hitem : Safe program K (Run.modifyScope (RenderContext.itemScope name loops length index item)) :=
      change fun _ hs => hs.withScope (hs.scope.itemScope hl (hi item (by simp)) name length index)
    exact hitem.append (hx.append (repeatFrom hx name hl length items (index + 1) fun i h => hi i (by simp [h])))

end Safe

namespace RenderContext.Runs

variable {context : RenderContext} {program : Program} {K : MacroHandle → Prop}
  {x : Run RenderState Unit}

/-! ### Operations -/

theorem safe_loop (hr : context.Runs program K) {items : LocatedExpression}
    (he : items ∈ program.expressions) (name : String) (hx : Safe program K x) :
    Safe program K (context.loop name items x) := by
  refine .read (fun σ hσ => (hr.loopItems he hσ).weaken fun _ hf => hf.not_isInternal) fun found hfound => ?_
  cases found with
  | none => exact hx
  | some values =>
    intro s hs
    rw [Run.run_bind_done (Run.run_get s)]
    exact (hx.repeatFrom name hs.scope.outerLoops _ values 0 (hfound values rfl)).inFrame s hs

theorem safe_element (hr : context.Runs program K) {tag : TagPlan}
    (he : ∀ e ∈ tag.expressions, e ∈ program.expressions) (hx : Safe program K x) :
    Safe program K (context.element tag x) := by
  refine .read (fun σ hσ => (hr.omits he hσ).weaken fun _ hf => hf.not_isInternal) fun omitted _ => ?_
  cases omitted with
  | true => exact hx
  | false =>
    refine .read (fun σ hσ => (hr.startTag he hσ).weaken fun _ hf => hf.not_isInternal) fun start _ => ?_
    exact (Safe.write start).append (hx.append (.write _))

theorem safe_guard (hr : context.Runs program K) {handler : LocatedExpression}
    (he : handler ∈ program.expressions) (asMarkup : Bool) (hx : Safe program K x) :
    Safe program K (context.guard handler asMarkup x) := by
  intro s hs
  have h := hx s hs
  unfold RenderContext.guard
  dsimp only
  generalize x.run s = o at h
  cases h with
  | done ht => exact .done ht
  | exhausted => exact .exhausted
  | @failed fault t hf ht =>
    dsimp only
    split
    · have hrecover : Safe program K (do
          let text ← Run.readScope (context.handlerText handler asMarkup fault)
          Run.write text) :=
        .read (fun σ hσ => (hr.handlerText he hσ asMarkup fault).weaken fun _ hf => hf.not_isInternal)
          fun text _ => .write text
      exact (Safe.change fun u hu => hu.backTo s.mark).append hrecover t ht
    · exact .failed hf ht

theorem safe_call (hr : context.Runs program K) {callee : MacroTarget} {fills : List (String × Block)}
    {arguments : List (String × Argument)} {location : Location} {enter : Block → Run RenderState Unit}
    (henter : ∀ b ∈ program.blocks, Safe program K (enter b))
    (hop : program.Contains (.callMacro callee fills arguments location)) :
    Safe program K (context.call enter callee fills arguments location) := by
  have hfills : ∀ fill ∈ fills, fill.2 ∈ program.blocks :=
    fun fill hf => hop.mem_blocks (Block.mem_ofFills hf)
  refine .read (fun σ hσ => hr.prepareCall hσ hop) fun ⟨m, bindings⟩ ⟨hm, hb⟩ => ?_
  intro s hs
  rw [Run.run_bind_done (Run.run_get s)]
  have hbody : Safe program K (do Run.modifyScope (RenderContext.defineAll bindings); enter m.body) :=
    (Safe.change fun t ht => ht.withScope (ht.scope.defineAll hb)).append
      (henter m.body (Program.mem_blocks_of_mem_macros hm))
  exact (Safe.change fun t ht => ht.enter hfills).append
    (hbody.inFrame.append (.change fun t ht => ht.leave s.current)) s hs

theorem safe_slot {enter : Block → Run RenderState Unit}
    (henter : ∀ b ∈ program.blocks, Safe program K (enter b)) (name : String) (hx : Safe program K x) :
    Safe program K (RenderContext.slot enter name x) := by
  intro s hs
  rw [RenderContext.slot, Run.run_bind_done (Run.run_get s)]
  cases hfill : s.fill? name with
  | none => exact hx s hs
  | some fill =>
    obtain ⟨body, caller⟩ := fill
    exact (Safe.change fun t ht => ht.within caller).append
      ((henter body (hs.fill hfill)).append (.change fun t ht => ht.within s.current)) s hs

mutual

/-- An operation of the program keeps a state sound. -/
theorem operation_safe (hr : context.Runs program K) {enter : Block → Run RenderState Unit}
    (henter : ∀ b ∈ program.blocks, Safe program K (enter b)) : ∀ op : Operation, program.Contains op →
    Safe program K (context.operation enter op)
  | .literal text, _ => .write text
  | .emit e asMarkup fallback, hop => by
    have he := hop.mem_expressions (e := e) List.mem_cons_self
    have hfallback := operations_safe hr henter fallback
      (fun o ho => ⟨fallback, hop.mem_blocks List.mem_cons_self, ho⟩)
    refine .read (fun σ hσ => (hr.value he hσ).weaken fun _ hf => hf.not_isInternal) fun v _ => ?_
    split
    · exact hfallback
    · exact .write _
  | .pushScope, _ => .change fun _ hs => hs.withScope hs.scope.push
  | .popScope, _ => .change fun _ hs => hs.withScope hs.scope.pop
  | .define kind name e, hop => by
    have he := hop.mem_expressions (e := e) List.mem_cons_self
    refine .read (fun σ hσ => (hr.bind he hσ kind name).weaken fun _ hf => hf.not_isInternal)
      fun τ hτ => ?_
    exact .change fun _ hs => hs.withScope hτ
  | .condition test body, hop => by
    have he := hop.mem_expressions (e := test) List.mem_cons_self
    have hbody := operations_safe hr henter body
      (fun o ho => ⟨body, hop.mem_blocks List.mem_cons_self, ho⟩)
    refine .read (fun σ hσ => (hr.value he hσ).weaken fun _ hf => hf.not_isInternal) fun v _ => ?_
    split
    · exact hbody
    · exact .nothing
  | .repeat name items body, hop =>
    hr.safe_loop (hop.mem_expressions List.mem_cons_self) name (operations_safe hr henter body
      (fun o ho => ⟨body, hop.mem_blocks List.mem_cons_self, ho⟩))
  | .element tag body, hop =>
    hr.safe_element (fun e he => hop.mem_expressions (List.mem_append_left _ he))
      (operations_safe hr henter body (fun o ho => ⟨body, hop.mem_blocks List.mem_cons_self, ho⟩))
  | .onError body handler asMarkup, hop =>
    hr.safe_guard (hop.mem_expressions (List.mem_append_right _ List.mem_cons_self)) asMarkup
      (operations_safe hr henter body (fun o ho => ⟨body, hop.mem_blocks List.mem_cons_self, ho⟩))
  | .callMacro callee fills arguments location, hop => hr.safe_call henter hop
  | .slot name fallback, hop =>
    safe_slot henter name (operations_safe hr henter fallback
      (fun o ho => ⟨fallback, hop.mem_blocks List.mem_cons_self, ho⟩))

theorem operations_safe (hr : context.Runs program K) {enter : Block → Run RenderState Unit}
    (henter : ∀ b ∈ program.blocks, Safe program K (enter b)) : ∀ ops : List Operation,
    (∀ op ∈ ops, program.Contains op) → Safe program K (context.operations enter ops)
  | [], _ => .nothing
  | op :: ops, h => (operation_safe hr henter op (h op (by simp))).append
    (operations_safe hr henter ops fun o ho => h o (by simp [ho]))

end

theorem enterWithin_safe (hr : context.Runs program K) : ∀ n, ∀ b ∈ program.blocks,
    Safe program K (context.enterWithin n b)
  | 0, _, _ => fun _ _ => .exhausted
  | n + 1, b, hb => by
    show Safe program K (context.runBlock n b)
    rw [RenderContext.runBlock_eq]
    exact hr.operations_safe (hr.enterWithin_safe n) b fun op hop => ⟨b, hb, hop⟩

theorem runBlock_safe (hr : context.Runs program K) (n : Nat) {b : Block} (hb : b ∈ program.blocks) :
    Safe program K (context.runBlock n b) :=
  hr.enterWithin_safe (n + 1) b hb

/-! ### What is executed -/

theorem iterates_sound (hx : Safe program K x) {name : String} {loops : Fields Value}
    (hl : Frame.HandlesIn K loops) {length index : Nat} {items : List Value}
    (hi : ∀ item ∈ items, item.HandlesIn K) {s t : RenderState}
    (h : RenderContext.Iterates name loops length x index items s t) (hs : s.IsSound program K) :
    t.IsSound program K := by
  induction h with
  | here => exact hs.withScope (hs.scope.itemScope hl (hi _ (by simp)) name length _)
  | @later index item items s t u hrun _ ih =>
    have hitem := hs.withScope (hs.scope.itemScope hl (hi item (by simp)) name length index)
    have hend := hx _ hitem
    rw [hrun] at hend
    cases hend with
    | done ht => exact ih (fun i h => hi i (by simp [h])) ht

/-- What an operation of the program starts is a block of the program, in a sound state. -/
theorem starts_sound (hr : context.Runs program K) {n k : Nat} {op : Operation} {s t : RenderState}
    {body : Block} (h : context.Starts n op s k body t) (hop : program.Contains op)
    (hs : s.IsSound program K) : body ∈ program.blocks ∧ t.IsSound program K := by
  cases h with
  | default | holds | once | untagged | guarded | unfilled =>
    exact ⟨hop.mem_blocks List.mem_cons_self, hs⟩
  | tagged => exact ⟨hop.mem_blocks List.mem_cons_self, hs.scope, hs.calls⟩
  | @item _ name items _ _ _ values h hi =>
    have hbody : body ∈ program.blocks := hop.mem_blocks List.mem_cons_self
    have hitems := (hr.loopItems (hop.mem_expressions List.mem_cons_self) hs.scope).of_ok h values rfl
    exact ⟨hbody, iterates_sound (hr.runBlock_safe n hbody) hs.scope.outerLoops hitems hi
      (hs.withScope hs.scope.push)⟩
  | called h =>
    obtain ⟨hm, hb⟩ := (hr.prepareCall hs.scope hop).of_ok h
    refine ⟨Program.mem_blocks_of_mem_macros hm, ?_⟩
    have henter := hs.enter fun fill hf => hop.mem_blocks (Block.mem_ofFills hf)
    exact henter.withScope (hs.scope.push.defineAll hb)
  | filled h => exact ⟨hs.fill h, hs.within _⟩

/-- What is executed while a block of the program runs is an operation of the program, in a sound state. -/
theorem executes_sound (hr : context.Runs program K) {n k : Nat} {ops : Block} {op : Operation}
    {s u : RenderState} (h : context.Executes n ops s k op u) (hops : ∀ o ∈ ops, program.Contains o)
    (hs : s.IsSound program K) : program.Contains op ∧ u.IsSound program K := by
  induction h with
  | here => exact ⟨hops _ List.mem_cons_self, hs⟩
  | @later n k op found ops s t u hrun _ ih =>
    have hend := hr.operation_safe (hr.enterWithin_safe n) op (hops op List.mem_cons_self) s hs
    rw [hrun] at hend
    cases hend with
    | done ht => exact ih (fun o ho => hops o (List.mem_cons_of_mem _ ho)) ht
  | @inside n m k op found ops body s t u hst _ ih =>
    obtain ⟨hbody, ht⟩ := hr.starts_sound hst (hops op List.mem_cons_self) hs
    exact ih (fun o ho => ⟨body, hbody, ho⟩) ht

end RenderContext.Runs

section

variable {context : RenderContext} {program : Program} {K : MacroHandle → Prop} {op : Operation}
  {s : RenderState}

/-- What an operation needs is there when it is executed: its expressions and the macro it calls are those of
the program, a macro that is known has the parameters, and no failure has an internal cause. -/
structure RenderContext.Supports (context : RenderContext) (program : Program) (op : Operation)
    (s : RenderState) : Prop where
  expressions : ∀ e ∈ op.expressions, e ∈ program.expressions
  calls : ∀ callee fills arguments location, op = .callMacro callee fills arguments location →
    (∀ m bindings, context.prepareCall s.scope callee arguments location = .ok (m, bindings) →
      m ∈ program.macros) ∧
    ∀ fault, context.prepareCall s.scope callee arguments location = .error fault →
      (∀ id, fault.problem ≠ .noSuchMacro id) ∧
      ∀ id, callee = .known id → ∀ name parameter, fault.problem ≠ .noSuchParameter name parameter
  fails : ∀ n fault t, (context.operation (context.enterWithin n) op).run s = .failed fault t →
    ¬fault.IsInternal

theorem RenderContext.Runs.supports (hr : context.Runs program K) (hop : program.Contains op)
    (hs : s.IsSound program K) : context.Supports program op s where
  expressions e he := hop.mem_expressions he
  calls := by
    rintro callee fills arguments location rfl
    have hcall := hr.prepareCall hs.scope hop
    refine ⟨fun m bindings h => (hcall.of_ok h).1, fun fault h => ⟨fun id hp => ?_, ?_⟩⟩
    · refine hcall.of_error h ?_
      unfold RenderFault.IsInternal
      rw [hp]
      trivial
    · rintro id rfl name parameter hp
      obtain ⟨cause, source, hvalue, -⟩ := (hr.prepareKnown hs.scope hop).of_error h
      rw [hp] at hvalue
      cases hvalue
  fails n fault t h := by
    have hend := hr.operation_safe (hr.enterWithin_safe n) op hop s hs
    rw [h] at hend
    cases hend with
    | failed hf ht => exact hf

end

/-! ### Templates -/

/-- A handle that leads to a macro of the program. -/
def Program.Reaches (program : Program) (m : MacroHandle) : Prop :=
  m.id < program.macros.length

namespace Template

variable {template : Template} {program : Program} {globals frame : Frame}

theorem handlesIn_macroBindings (hw : program.IsWellFormed) :
    ∀ binding ∈ program.macroBindings, binding.2.HandlesIn program.Reaches := by
  intro binding hb
  obtain ⟨entry, he, rfl⟩ := List.mem_map.1 hb
  have hhandles : (Program.handles entry.2).HandlesIn program.Reaches := by
    refine Value.handlesIn_map.2 fun field hf => ?_
    obtain ⟨found, hfound, rfl⟩ := List.mem_map.1 hf
    exact Value.handlesIn_handle.2 (hw.names entry he found hfound)
  split
  · exact hhandles
  · refine Value.handlesIn_map.2 fun field hf => ?_
    rw [List.mem_singleton.1 hf]
    exact hhandles

theorem declared_gives {K : MacroHandle → Prop} (hg : Frame.HandlesIn K globals) :
    Gives (fun declared => ∀ binding ∈ declared, binding.2.HandlesIn K) (fun fault => ¬fault.IsInternal)
      (template.globals.mapM (declaredGlobal globals)) := by
  refine Gives.mapM fun declared _ => ?_
  have hv : ((globals.get? declared.1).getD .nothing).HandlesIn K := by
    cases hget : globals.get? declared.1 with
    | none => exact Value.handlesIn_nothing
    | some v => exact hg.get? hget
  unfold declaredGlobal
  dsimp only
  split
  · exact .ok hv
  · next tag _ =>
    split
    · next hok => exact .ok ((hv.coerce tag).of_ok hok)
    · exact .error fun h => h

/-- The macros are bound over variables whose handles are those of the globals. -/
theorem rootFrame_ok {K : MacroHandle → Prop} (hg : Frame.HandlesIn K globals)
    (hf : template.rootFrame globals = .ok frame) :
    ∃ before : Frame, before.HandlesIn K ∧ frame = bindAll before template.program.macroBindings := by
  obtain ⟨declared, hd, h⟩ := bind_eq_ok.1 hf
  cases h
  exact ⟨_, hg.insertAll ((declared_gives hg).of_ok hd), rfl⟩

/-- In the variables before a template runs, handles lead to macros of its program. -/
theorem rootFrame_gives (hw : template.program.IsWellFormed)
    (hg : ∀ entry ∈ globals, entry.2.handles = []) :
    Gives (Frame.HandlesIn template.program.Reaches) (fun fault => ¬fault.IsInternal)
      (template.rootFrame globals) := by
  have hglobals : Frame.HandlesIn template.program.Reaches globals := fun entry he => .of_eq_nil (hg entry he)
  unfold rootFrame
  refine (declared_gives hglobals).bind fun declared _ hd => .ok ?_
  exact (hglobals.insertAll hd).insertAll (handlesIn_macroBindings hw)

theorem runs_of_accept {provider : ResourceProvider} {mode : TemplateMode} {source : TemplateSource}
    {requirements : Requirements} (hc : Program.compile provider mode source = .ok program)
    (ha : program.accept requirements = .ok template) (format : ValueFormatter) :
    (template.context format).Runs program program.Reaches where
  wellFormed := (Program.compile_gives provider mode source).of_ok hc
  macros := by
    rw [← (Program.accept_ok ha).1]
    rfl
  handles _ h := h
  evaluates _ he _ hσ := Program.evaluate_gives ha he hσ

/-- The state in which a template begins to run is sound. -/
theorem initial_isSound (hw : template.program.IsWellFormed) (hg : ∀ entry ∈ globals, entry.2.handles = [])
    (hf : template.rootFrame globals = .ok frame) :
    (RenderState.initial (.ofGlobals frame)).IsSound template.program template.program.Reaches :=
  ⟨.ofGlobals ((rootFrame_gives hw hg).of_ok hf), fun call hc => by simp [RenderState.initial] at hc⟩

theorem not_isInternal_of_render {format : ValueFormatter}
    (hr : (template.context format).Runs template.program template.program.Reaches)
    (hg : ∀ entry ∈ globals, entry.2.handles = []) {fault : RenderFault}
    (h : template.render format globals = .error fault) : ¬fault.IsInternal := by
  unfold render renderWithin at h
  cases hf : template.rootFrame globals with
  | error early =>
    rw [hf] at h
    cases h
    exact (rootFrame_gives hr.wellFormed hg).of_error hf
  | ok frame =>
    rw [hf] at h
    dsimp only at h
    have hend := hr.runBlock_safe depthBound List.mem_cons_self _ (initial_isSound hr.wellFormed hg hf)
    generalize ((template.context format).runBlock depthBound template.program.body).run
      (.initial (.ofGlobals frame)) = o at h hend
    cases hend with
    | done => cases h
    | failed hf =>
      cases h
      exact hf
    | exhausted =>
      cases h
      exact fun h => h

/-- An accepted program never fails in its host code or in finding a macro, whatever its global variables are
as long as they hold no handles: all of its host code is prepared, all that is executed are its operations,
with all they need, and no rendering fails for an internal cause. -/
theorem supports_of_accept {provider : ResourceProvider} {mode : TemplateMode} {source : TemplateSource}
    {requirements : Requirements} (hc : Program.compile provider mode source = .ok program)
    (ha : program.accept requirements = .ok template) (format : ValueFormatter)
    (hg : ∀ entry ∈ globals, entry.2.handles = []) :
    (∀ e ∈ program.expressions, ∀ code ∈ e.expression.hostCode, template.host.Serves code) ∧
    (∀ e ∈ program.expressions, ∀ σ problem,
      e.expression.evaluate template.host.evaluate σ ≠ .error (.host problem)) ∧
    (∀ frame, template.rootFrame globals = .ok frame → ∀ n k op u,
      (template.context format).Executes n program.body (.initial (.ofGlobals frame)) k op u →
      (template.context format).Supports program op u) ∧
    ∀ fault, template.render format globals = .error fault → ¬fault.IsInternal := by
  obtain ⟨rfl, hchecked, hprepared⟩ := Program.accept_ok ha
  have hr := runs_of_accept hc ha format
  have hbody : template.program.body ∈ template.program.blocks := by simp [Program.blocks]
  refine ⟨fun e he code hcode => hchecked.serves (hprepared e he code hcode), ?_, ?_, ?_⟩
  · intro e he σ problem h
    have hσ : σ.HandlesIn fun _ => True := .of_forall (fun _ => trivial) σ
    exact (Program.evaluate_gives ha he hσ).of_error h problem rfl
  · intro frame hf n k op u h
    have hs := initial_isSound hr.wellFormed hg hf
    obtain ⟨hop, hu⟩ := hr.executes_sound h (fun o ho => ⟨_, hbody, ho⟩) hs
    exact hr.supports hop hu
  · exact fun fault h => not_isInternal_of_render hr hg h

/-- A macro with host code, and a call of it. -/
def hostCall : TemplateSource :=
  ⟨"<b metal:define-macro=\"m\" tal:content=\"host:x+1\"/><metal:p use-macro=\"macros/m\"/>", none⟩

theorem supports_of_accept_hostCall : ∃ program template,
    Program.compile (MemoryStore.provider []) .markup hostCall = .ok program ∧
    program.accept ⟨[], []⟩ = .ok template ∧ template.host.prepared.length = 1 ∧
    (∀ entry ∈ [("x", Value.int 1)], entry.2.handles = []) ∧
    ∀ fault, template.render Value.text [("x", .int 1)] = .error fault → ¬fault.IsInternal := by
  have hd : (Program.compile (MemoryStore.provider []) .markup hostCall >>=
      (Program.accept · ⟨[], []⟩)).toOption.any (·.host.prepared.length = 1) := by decide +kernel
  cases hc : Program.compile (MemoryStore.provider []) .markup hostCall with
  | error fault => rw [hc] at hd; cases hd
  | ok program =>
    rw [hc] at hd
    cases ha : program.accept ⟨[], []⟩ with
    | error fault => simp [Bind.bind, Except.bind, ha, Except.toOption] at hd
    | ok template =>
      have hprepared : template.host.prepared.length = 1 := by
        simpa [Bind.bind, Except.bind, ha, Except.toOption] using hd
      have hg : ∀ entry ∈ [("x", Value.int 1)], entry.2.handles = [] := by simp [Value.handles]
      have hsafe := (supports_of_accept hc ha Value.text hg).2.2.2
      exact ⟨program, template, rfl, ha, hprepared, hg, hsafe⟩

end Template

end MarkupTemplate
