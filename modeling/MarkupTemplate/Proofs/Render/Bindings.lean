import MarkupTemplate.Proofs.Evaluation.Bindings
import MarkupTemplate.Proofs.Render.Stacks
import MarkupTemplate.Proofs.Render.Values

/-!
# What is bound around a running block

A program spares a variable if none of its definitions, parameters and loop variables has this name
(`Program.Spares`). Then whatever a block does, also if it fails, the frames that it started with bind to this
variable what they bound before (`RenderContext.runBlock_kept`). This holds for `repeat` as well, which repetitions
bind in frames of their own.
-/

namespace MarkupTemplate

/-- The variable that an operation binds under a name that the template gives. -/
def Operation.binds? : Operation → Option String
  | .define _ name _ => some name
  | .repeat name _ _ => some name
  | _ => none

/-- No definition, loop variable or parameter of the program has this name. -/
structure Program.Spares (program : Program) (x : String) : Prop where
  operations : ∀ b ∈ program.blocks, ∀ op ∈ b, op.binds? ≠ some x
  parameters : ∀ m ∈ program.macros, ∀ p ∈ m.parameters, p.name ≠ x

/-- A state of a running program in which the frames bind this to a variable. -/
structure RenderState.Shows (s : RenderState) (program : Program) (x : String) (bound : List (Option Value)) :
    Prop where
  bindings : s.scope.bindings x = bound
  calls : s.IsOf program

namespace RenderState.Shows

variable {s : RenderState} {program : Program} {x : String} {bound other : List (Option Value)}

theorem withScope (h : s.Shows program x bound) {σ : Scope} (hσ : σ.bindings x = other) :
    (s.withScope σ).Shows program x other :=
  ⟨hσ, h.calls⟩

theorem enter (h : s.Shows program x bound) {fills : List (String × Block)}
    (hf : ∀ fill ∈ fills, fill.2 ∈ program.blocks) : (s.enter fills).Shows program x bound := by
  refine ⟨h.bindings, fun call hc => ?_⟩
  rcases Array.mem_push.1 hc with hc | rfl
  · exact h.calls call hc
  · exact hf

theorem leave (h : s.Shows program x bound) (caller : Option Nat) : (s.leave caller).Shows program x bound := by
  refine ⟨h.bindings, fun call hc => h.calls call ?_⟩
  have hc : call ∈ s.invocations.pop := hc
  rw [← Array.mem_toList_iff, Array.toList_pop] at hc
  exact Array.mem_toList_iff.1 (List.dropLast_subset _ hc)

theorem fill (h : s.Shows program x bound) {name : String} {body : Block} {caller : Option Nat}
    (hf : s.fill? name = some (body, caller)) : body ∈ program.blocks := by
  obtain ⟨i, -, hf⟩ := Option.bind_eq_some_iff.1 hf
  obtain ⟨call, hi, hf⟩ := Option.bind_eq_some_iff.1 hf
  obtain ⟨b, hl, hf⟩ := Option.bind_eq_some_iff.1 hf
  cases hf
  exact h.calls call (Array.mem_of_getElem? hi) _ (Fields.mem_of_get? hl)

/-- What a handler takes back are the frames above those from before. -/
theorem backTo {t : RenderState} {above : List (Option Value)} (hs : s.Shows program x bound) (hb : bound ≠ [])
    (ht : t.Shows program x (above ++ bound)) : (t.backTo s.mark).Shows program x bound := by
  refine ⟨?_, fun call hc => ht.calls call ?_⟩
  · have hdepth : s.mark.depth = bound.length := by
      rw [← hs.bindings, Scope.length_bindings]
      rfl
    show (t.scope.truncate s.mark.depth).bindings x = bound
    rw [hdepth]
    exact Scope.bindings_truncate ht.bindings hb
  · have hc : call ∈ t.invocations.take s.mark.calls := hc
    rw [← Array.mem_toList_iff, Array.take_eq_extract, Array.toList_extract, List.extract_eq_take_drop] at hc
    exact Array.mem_toList_iff.1 (List.mem_of_mem_take hc)

end RenderState.Shows

/-- A run ends with frames above these that bind something of a kind, or fails with some above these. -/
inductive Rests (program : Program) (x : String) (q : List (Option Value) → Prop) (base : List (Option Value)) :
    Outcome RenderState Unit → Prop
  | done {above : List (Option Value)} {t : RenderState} (hq : q above)
      (h : t.Shows program x (above ++ base)) : Rests program x q base (.done () t)
  | failed {above : List (Option Value)} {fault : RenderFault} {t : RenderState}
      (h : t.Shows program x (above ++ base)) : Rests program x q base (.failed fault t)
  | exhausted : Rests program x q base .exhausted

/-- Whatever frames are below, a run leaves what they bind to a variable. -/
def Kept (program : Program) (x : String) (p q : List (Option Value) → Prop) (r : Run RenderState Unit) : Prop :=
  ∀ base above s, base ≠ [] → p above → s.Shows program x (above ++ base) → Rests program x q base (r.run s)

/-- So many frames that bind nothing. -/
def Fresh (n : Nat) (above : List (Option Value)) : Prop :=
  above = List.replicate n none

namespace Kept

variable {program : Program} {x : String} {p q o : List (Option Value) → Prop} {r r' : Run RenderState Unit}

theorem nothing : Kept program x p p (pure ()) := fun _ _ _ _ hp hs => .done hp hs

theorem change {f : Scope → Scope} (h : ∀ σ base above, base ≠ [] → p above → σ.bindings x = above ++ base →
    ∃ above', q above' ∧ (f σ).bindings x = above' ++ base) : Kept program x p q (Run.modifyScope f) := by
  intro base above s hb hp hs
  obtain ⟨above', hq, h⟩ := h s.scope base above hb hp hs.bindings
  exact .done hq (hs.withScope h)

theorem write (piece : String) : Kept program x p p (Run.write piece) :=
  fun _ _ s _ hp hs => Rests.done (t := s.write piece) hp ⟨hs.bindings, hs.calls⟩

theorem append (hr : Kept program x p q r) (hr' : Kept program x q o r') : Kept program x p o (do r; r') := by
  intro base above s hb hp hs
  have h := hr base above s hb hp hs
  generalize hrun : r.run s = out at h
  cases h with
  | done hq ht =>
    rw [Run.run_bind_done hrun]
    exact hr' base _ _ hb hq ht
  | failed ht =>
    rw [Run.run_bind_failed hrun]
    exact .failed ht
  | exhausted =>
    rw [Run.run_bind_exhausted hrun]
    exact .exhausted

theorem read {α : Type} {f : Scope → Except RenderFault α} {k : α → Run RenderState Unit}
    (hk : ∀ a σ, f σ = .ok a → Kept program x p q (k a)) : Kept program x p q (Run.readScope f >>= k) := by
  intro base above s hb hp hs
  cases ha : f s.scope with
  | ok a =>
    have hread : (Run.readScope f).run s = .done a s := Run.run_read_ok ha
    rw [Run.run_bind_done hread]
    exact hk a s.scope ha base above s hb hp hs
  | error fault =>
    have hread : (Run.readScope f).run s = .failed fault s := Run.run_read_error ha
    rw [Run.run_bind_failed hread]
    exact .failed hs

/-- A run that leaves no frame of its own leaves those above others too. -/
theorem lift (hr : Kept program x (Fresh 0) (Fresh 0) r) : Kept program x p p r := by
  intro base above s hb hp hs
  have h := hr (above ++ base) [] s (by simp [hb]) rfl hs
  generalize r.run s = out at h
  cases h with
  | done hq ht =>
    cases hq
    exact .done hp ht
  | @failed more _ t ht =>
    have ht : t.Shows program x ((more ++ above) ++ base) := by rwa [List.append_assoc]
    exact .failed ht
  | exhausted => exact .exhausted

theorem inFrame (hr : Kept program x (Fresh 1) (fun above => above.length = 1) r) :
    Kept program x (Fresh 0) (Fresh 0) (Run.inFrame r) := by
  have hpush : Kept program x (Fresh 0) (Fresh 1) (Run.modifyScope Scope.push) := by
    refine change fun σ base above _ hp hσ => ⟨[none], rfl, ?_⟩
    cases hp
    rw [Scope.bindings_push, hσ]
    rfl
  have hpop : Kept program x (fun above => above.length = 1) (Fresh 0) (Run.modifyScope Scope.pop) := by
    refine change fun σ base above hb hp hσ => ⟨[], rfl, ?_⟩
    obtain ⟨head, rfl⟩ := List.length_eq_one_iff.1 hp
    exact Scope.bindings_pop hσ hb
  exact hpush.append (hr.append hpop)

theorem inFreshFrame (hr : Kept program x (Fresh 1) (Fresh 1) r) :
    Kept program x (Fresh 0) (Fresh 0) (Run.inFrame r) := by
  refine inFrame fun base above s hb hp hs => ?_
  have h := hr base above s hb hp hs
  generalize r.run s = out at h
  cases h with
  | done hq ht =>
    cases hq
    exact .done rfl ht
  | failed ht => exact .failed ht
  | exhausted => exact .exhausted

end Kept

namespace RenderContext

variable {context : RenderContext} {program : Program} {x : String} {r : Run RenderState Unit}
  {p : List (Option Value) → Prop} {σ τ : Scope}

/-! ### Operations -/

theorem bindings_bind {kind : BindingKind} {name : String} {e : LocatedExpression} (hx : x ≠ name)
    (h : context.bind kind name e σ = .ok τ) : τ.bindings x = σ.bindings x := by
  obtain ⟨v, -, ⟨-, rfl⟩ | ⟨-, rfl⟩ | ⟨-, h⟩⟩ := context.bind_cases h
  · exact Scope.bindings_defineLocal σ hx v
  · exact Scope.bindings_defineGlobal σ hx v
  · exact Scope.bindings_set hx h

theorem kept_define (kind : BindingKind) {name : String} (hx : x ≠ name) (e : LocatedExpression) :
    Kept program x p p (context.define kind name e) := by
  intro base above s _ hp hs
  unfold define
  cases hb : context.bind kind name e s.scope with
  | ok τ =>
    have hread : (Run.readScope (context.bind kind name e)).run s = .done τ s := Run.run_read_ok hb
    rw [Run.run_bind_done hread]
    exact .done hp (hs.withScope ((bindings_bind hx hb).trans hs.bindings))
  | error fault =>
    have hread : (Run.readScope (context.bind kind name e)).run s = .failed fault s := Run.run_read_error hb
    rw [Run.run_bind_failed hread]
    exact .failed hs

/-- In the frame of a repetition, an item changes only what this frame binds. -/
theorem kept_itemScope {name : String} (hx : x ≠ name) (loops : Fields Value) (length index : Nat) (item : Value) :
    Kept program x (fun above => above.length = 1) (fun above => above.length = 1)
      (Run.modifyScope (itemScope name loops length index item)) := by
  refine .change fun σ base above _ hp hσ => ?_
  obtain ⟨head, rfl⟩ := List.length_eq_one_iff.1 hp
  have hname := (Scope.bindings_defineLocal σ hx item).trans hσ
  rw [itemScope]
  by_cases hrepeat : x = "repeat"
  · subst hrepeat
    refine ⟨[some (.map (loops.insert name (repetition index length)))], rfl, ?_⟩
    rw [Scope.bindings_defineLocal_self, hname]
    rfl
  · exact ⟨[head], rfl, (Scope.bindings_defineLocal _ hrepeat _).trans hname⟩

theorem kept_repeatFrom {name : String} (hx : x ≠ name) (loops : Fields Value) (length : Nat)
    (hr : Kept program x (Fresh 0) (Fresh 0) r) : ∀ (items : List Value) (index : Nat),
    Kept program x (fun above => above.length = 1) (fun above => above.length = 1)
      (repeatFrom name loops length r index items)
  | [], _ => .nothing
  | item :: items, index => (kept_itemScope hx loops length index item).append
    (hr.lift.append (kept_repeatFrom hx loops length hr items (index + 1)))

theorem kept_loop {name : String} (hx : x ≠ name) (items : LocatedExpression)
    (hr : Kept program x (Fresh 0) (Fresh 0) r) :
    Kept program x (Fresh 0) (Fresh 0) (context.loop name items r) := by
  refine .read fun found _ _ => ?_
  cases found with
  | none => exact hr
  | some values =>
    intro base above s hb hp hs
    rw [Run.run_bind_done (Run.run_get s)]
    have hframe : Kept program x (Fresh 1) (fun above => above.length = 1)
        (repeatFrom name (outerLoops s.scope) values.length r 0 values) := fun base above t hb hp ht =>
      kept_repeatFrom hx _ _ hr values 0 base above t hb (by rw [hp]; rfl) ht
    exact hframe.inFrame base above s hb hp hs

theorem kept_element (tag : TagPlan) (hr : Kept program x (Fresh 0) (Fresh 0) r) :
    Kept program x (Fresh 0) (Fresh 0) (context.element tag r) := by
  refine .read fun omitted _ _ => ?_
  cases omitted with
  | true => exact hr
  | false => exact .read fun start _ _ => (Kept.write start).append (hr.append (.write _))

theorem kept_guard (handler : LocatedExpression) (asMarkup : Bool) (hr : Kept program x (Fresh 0) (Fresh 0) r) :
    Kept program x (Fresh 0) (Fresh 0) (context.guard handler asMarkup r) := by
  intro base above s hb hp hs
  cases hp
  have h := hr base [] s hb rfl hs
  unfold guard
  dsimp only
  generalize r.run s = out at h
  cases h with
  | done hq ht => exact .done hq ht
  | exhausted => exact .exhausted
  | @failed above fault t ht =>
    dsimp only
    split
    · have hrecover : Kept program x (Fresh 0) (Fresh 0) (do
          let text ← Run.readScope (context.handlerText handler asMarkup fault)
          Run.write text) := .read fun text _ _ => .write text
      exact hrecover base [] (t.backTo s.mark) hb rfl (hs.backTo hb ht)
    · exact .failed ht

theorem bindings_defineAll {bindings : List (String × Value)} (h : ∀ binding ∈ bindings, x ≠ binding.1) :
    (defineAll bindings σ).bindings x = σ.bindings x := by
  induction bindings generalizing σ with
  | nil => rfl
  | cons binding bindings ih =>
    exact (ih fun b hb => h b (by simp [hb])).trans (Scope.bindings_defineLocal σ (h binding (by simp)) _)

/-- A call binds the parameters of the macro. -/
theorem names_of_prepareCall {callee : MacroTarget} {arguments : List (String × Argument)} {location : Location}
    {m : Macro} {bindings : List (String × Value)}
    (h : context.prepareCall σ callee arguments location = .ok (m, bindings)) :
    bindings.map Prod.fst = m.parameters.map Parameter.name := by
  unfold prepareCall at h
  obtain ⟨id, -, h⟩ := bind_eq_ok.1 h
  split at h
  · cases h
  · split at h
    · cases h
    · obtain ⟨values, hv, h⟩ := bind_eq_ok.1 h
      cases h
      refine map_of_mapM hv fun parameter binding hb => ?_
      unfold bindParameter at hb
      dsimp only at hb
      split at hb
      all_goals
        obtain ⟨v, -, hb⟩ := bind_eq_ok.1 hb
        obtain ⟨w, -, hb⟩ := bind_eq_ok.1 hb
        cases hb
        rfl

/-- A program that does not bind a variable runs in this context. -/
structure Leaves (context : RenderContext) (program : Program) (x : String) : Prop where
  macros : context.macros = program.macros
  balanced : ∀ b ∈ program.blocks, b.IsBalanced
  spares : program.Spares x

theorem Leaves.ne_of_contains (h : context.Leaves program x) {op : Operation} (hop : program.Contains op)
    {name : String} (hn : op.binds? = some name) : x ≠ name := by
  rintro rfl
  obtain ⟨b, hb, hop⟩ := hop
  exact h.spares.operations b hb op hop hn

theorem Leaves.defineAll (h : context.Leaves program x) {callee : MacroTarget}
    {arguments : List (String × Argument)} {location : Location} {m : Macro} {bindings : List (String × Value)}
    (hp : context.prepareCall σ callee arguments location = .ok (m, bindings)) (τ : Scope) :
    (RenderContext.defineAll bindings τ).bindings x = τ.bindings x := by
  refine bindings_defineAll fun binding hb he => ?_
  have hname : binding.1 ∈ m.parameters.map Parameter.name := by
    rw [← names_of_prepareCall hp]
    exact List.mem_map_of_mem hb
  obtain ⟨parameter, hparameter, hname⟩ := List.mem_map.1 hname
  have hm : m ∈ program.macros := h.macros ▸ context.mem_of_prepareCall hp
  exact h.spares.parameters m hm parameter hparameter (hname.trans he.symm)

theorem kept_call (h : context.Leaves program x) {enter : Block → Run RenderState Unit}
    (henter : ∀ b ∈ program.blocks, Kept program x (Fresh 0) (Fresh 0) (enter b)) (callee : MacroTarget)
    {fills : List (String × Block)} (hf : ∀ fill ∈ fills, fill.2 ∈ program.blocks)
    (arguments : List (String × Argument)) (location : Location) :
    Kept program x (Fresh 0) (Fresh 0) (context.call enter callee fills arguments location) := by
  refine .read fun (m, bindings) σ hcall => ?_
  intro base above s hb hp hs
  rw [Run.run_bind_done (Run.run_get s), Run.run_bind_done (Run.run_modify _ s)]
  have hm : m ∈ program.macros := h.macros ▸ context.mem_of_prepareCall hcall
  have hdefine : Kept program x (Fresh 1) (Fresh 1) (Run.modifyScope (defineAll bindings)) :=
    .change fun τ base above _ hp hτ => ⟨above, hp, (h.defineAll hcall τ).trans hτ⟩
  have hbody : Kept program x (Fresh 1) (Fresh 1) (enter m.body) :=
    (henter m.body (Program.mem_blocks_of_mem_macros hm)).lift
  have hframe := (hdefine.append hbody).inFreshFrame base above (s.enter fills) hb hp (hs.enter hf)
  generalize hrun : (Run.inFrame _).run (s.enter fills) = out at hframe
  cases hframe with
  | done hq ht =>
    rw [Run.run_bind_done hrun, Run.run_modify]
    exact .done hq (ht.leave s.current)
  | failed ht =>
    rw [Run.run_bind_failed hrun]
    exact .failed ht
  | exhausted =>
    rw [Run.run_bind_exhausted hrun]
    exact .exhausted

theorem kept_slot {enter : Block → Run RenderState Unit}
    (henter : ∀ b ∈ program.blocks, Kept program x (Fresh 0) (Fresh 0) (enter b)) (name : String)
    (hr : Kept program x (Fresh 0) (Fresh 0) r) : Kept program x (Fresh 0) (Fresh 0) (slot enter name r) := by
  intro base above s hb hp hs
  rw [slot, Run.run_bind_done (Run.run_get s)]
  cases hfill : s.fill? name with
  | none => exact hr base above s hb hp hs
  | some fill =>
    obtain ⟨body, caller⟩ := fill
    have h := henter body (hs.fill hfill) base above (s.within caller) hb hp ⟨hs.bindings, hs.calls⟩
    rw [Run.run_bind_done (Run.run_modify _ s)]
    generalize hrun : (enter body).run (s.within caller) = out at h
    cases h with
    | @done above t hq ht =>
      rw [Run.run_bind_done hrun, Run.run_modify]
      exact .done (t := t.within s.current) hq ⟨ht.bindings, ht.calls⟩
    | failed ht =>
      rw [Run.run_bind_failed hrun]
      exact .failed ht
    | exhausted =>
      rw [Run.run_bind_exhausted hrun]
      exact .exhausted

section

variable {n : Nat}

mutual

/-- What an operation of the program does at a level that balance allows. -/
theorem operation_kept (h : context.Leaves program x)
    (henter : ∀ b ∈ program.blocks, Kept program x (Fresh 0) (Fresh 0) (context.enterWithin n b)) :
    ∀ (op : Operation), program.Contains op → ∀ {i j : Nat}, op.level? i = some j →
      Kept program x (Fresh i) (Fresh j) (context.operation (context.enterWithin n) op)
  | .literal text, _, i, j, hl => by
    cases hl
    exact .write text
  | .pushScope, _, i, j, hl => by
    cases hl
    refine .change fun σ base above _ hp hσ => ⟨none :: above, ?_, ?_⟩
    · rw [hp]
      rfl
    · rw [Scope.bindings_push, hσ]
      rfl
  | .popScope, _, i, j, hl => by
    simp only [Operation.level?, Option.ite_none_left_eq_some, Option.some.injEq] at hl
    obtain ⟨hi, rfl⟩ := hl
    refine .change fun σ base above hb hp hσ => ⟨List.replicate (i - 1) none, rfl, ?_⟩
    obtain ⟨i, rfl⟩ := Nat.exists_eq_succ_of_ne_zero hi
    exact Scope.bindings_pop (hσ.trans (by rw [hp]; rfl)) (by simp [hb])
  | .define kind name e, hop, i, j, hl => by
    simp only [Operation.level?, Option.ite_none_left_eq_some, Option.some.injEq] at hl
    obtain ⟨-, rfl⟩ := hl
    exact kept_define kind (h.ne_of_contains hop rfl) e
  | .emit e asMarkup fallback, hop, i, j, hl => by
    cases hl
    refine .read fun v _ _ => ?_
    split
    · exact (block_kept h henter fallback (hop.mem_blocks List.mem_cons_self)).lift
    · exact .write _
  | .condition test body, hop, i, j, hl => by
    cases hl
    refine .read fun v _ _ => ?_
    split
    · exact (block_kept h henter body (hop.mem_blocks List.mem_cons_self)).lift
    · exact .nothing
  | .repeat name items body, hop, i, j, hl => by
    cases hl
    exact (kept_loop (h.ne_of_contains hop rfl) items
      (block_kept h henter body (hop.mem_blocks List.mem_cons_self))).lift
  | .element tag body, hop, i, j, hl => by
    cases hl
    exact (kept_element tag (block_kept h henter body (hop.mem_blocks List.mem_cons_self))).lift
  | .onError body handler asMarkup, hop, i, j, hl => by
    cases hl
    exact (kept_guard handler asMarkup (block_kept h henter body (hop.mem_blocks List.mem_cons_self))).lift
  | .callMacro callee fills arguments location, hop, i, j, hl => by
    cases hl
    have hfills : ∀ fill ∈ fills, fill.2 ∈ program.blocks := fun fill hf => hop.mem_blocks (Block.mem_ofFills hf)
    exact (kept_call h henter callee hfills arguments location).lift
  | .slot name fallback, hop, i, j, hl => by
    cases hl
    exact (kept_slot henter name (block_kept h henter fallback (hop.mem_blocks List.mem_cons_self))).lift

theorem operations_kept (h : context.Leaves program x)
    (henter : ∀ b ∈ program.blocks, Kept program x (Fresh 0) (Fresh 0) (context.enterWithin n b)) :
    ∀ (ops : List Operation), (∀ op ∈ ops, program.Contains op) → ∀ {i j : Nat}, Block.level? ops i = some j →
      Kept program x (Fresh i) (Fresh j) (context.operations (context.enterWithin n) ops)
  | [], _, i, j, hl => by
    cases hl
    exact .nothing
  | op :: ops, hops, i, j, hl => by
    rw [Block.level?_cons] at hl
    obtain ⟨k, hk, hl⟩ := Option.bind_eq_some_iff.1 hl
    exact (operation_kept h henter op (hops op List.mem_cons_self) hk).append
      (operations_kept h henter ops (fun o ho => hops o (List.mem_cons_of_mem _ ho)) hl)

theorem block_kept (h : context.Leaves program x)
    (henter : ∀ b ∈ program.blocks, Kept program x (Fresh 0) (Fresh 0) (context.enterWithin n b))
    (b : Block) (hb : b ∈ program.blocks) :
    Kept program x (Fresh 0) (Fresh 0) (context.operations (context.enterWithin n) b) :=
  operations_kept h henter b (fun _ hop => ⟨b, hb, hop⟩) (h.balanced b hb)

end

end

end RenderContext

end MarkupTemplate
