import MarkupTemplate.Proofs.Compile.Balance
import MarkupTemplate.Proofs.Render.Executions
import MarkupTemplate.Proofs.Render.Frames

/-!
# The stacks of a running program

A balanced block leaves the frames, the calls and the current call as it finds them, or fails with more of
the first two (`Settles`). The frames around the block keep their variables too, as long as definitions
write to the innermost frame, which is one of the block's own. So taking back what a failed block has
added leaves the state in which the block started.
-/

namespace MarkupTemplate

/-- What is filled in by the calls under way is balanced. -/
def RenderState.FillsBalanced (s : RenderState) : Prop :=
  ∀ call ∈ s.invocations, ∀ b ∈ Block.ofFills call.fills, b.IsBalanced

theorem Block.allBalanced_of_lookup {fills : List (String × Block)} {name : String} {body : Block}
    (h : ∀ b ∈ Block.ofFills fills, b.IsBalanced) (hl : fills.lookup name = some body) :
    body.AllBalanced := by
  induction fills with
  | nil => cases hl
  | cons fill fills ih =>
    rw [List.lookup_cons] at hl
    split at hl
    · cases hl
      exact fun b hb => h b (List.mem_append_left _ hb)
    · exact ih (fun b hb => h b (List.mem_append_right _ hb)) hl

theorem RenderState.FillsBalanced.allBalanced {s : RenderState} (h : s.FillsBalanced) {name : String}
    {body : Block} {caller : Option Nat} (hf : s.fill? name = some (body, caller)) :
    body.AllBalanced := by
  obtain ⟨i, -, hf⟩ := Option.bind_eq_some_iff.1 hf
  obtain ⟨call, hi, hf⟩ := Option.bind_eq_some_iff.1 hf
  obtain ⟨b, hl, hf⟩ := Option.bind_eq_some_iff.1 hf
  cases hf
  exact Block.allBalanced_of_lookup (h call (Array.mem_of_getElem? hi)) hl

/-- What comes of `s`, seen from the outermost `d` frames: `n` frames more and otherwise the same calls
with more output, or a fault with calls and output added. If it is `quiet`, the `d` frames are the same. -/
inductive Settles (d n : Nat) (s : RenderState) (quiet : Prop) : Outcome RenderState Unit → Prop
  | done {t : RenderState} (hd : t.scope.depth = d + n) (hi : t.invocations = s.invocations)
      (hc : t.current = s.current) (hw : s.written <:+ t.written)
      (hq : quiet → t.scope.truncate d = s.scope.truncate d) : Settles d n s quiet (.done () t)
  | failed {fault : RenderFault} {t : RenderState} (hd : d ≤ t.scope.depth)
      (hi : ∃ more, t.invocations = s.invocations ++ more) (hw : s.written <:+ t.written)
      (hq : quiet → t.scope.truncate d = s.scope.truncate d) : Settles d n s quiet (.failed fault t)
  | exhausted : Settles d n s quiet .exhausted

theorem Settles.imp {d n : Nat} {s : RenderState} {quiet quiet' : Prop} {o : Outcome RenderState Unit}
    (h : Settles d n s quiet o) (hq : quiet' → quiet) : Settles d n s quiet' o := by
  cases h with
  | done hd hi hc hw h => exact .done hd hi hc hw fun hs => h (hq hs)
  | failed hd hi hw h => exact .failed hd hi hw fun hs => h (hq hs)
  | exhausted => exact .exhausted

/-- A run from `i` to `n` frames above any others settles, quietly where `quiet` holds. -/
def Settled (quiet : RenderState → Prop) (i n : Nat) (x : Run RenderState Unit) : Prop :=
  ∀ d s, 0 < d → s.scope.depth = d + i → s.FillsBalanced → Settles d n s (quiet s) (x.run s)

namespace Settled

variable {q p r : RenderState → Prop} {i j n : Nat} {x y : Run RenderState Unit}

theorem mono (hx : Settled p i j x) (h : ∀ s, q s → p s) : Settled q i j x :=
  fun d s hd hs hf => (hx d s hd hs hf).imp (h s)

/-- Seen from fewer frames, a block leaves as many as it finds. -/
theorem lift (hx : Settled q 0 0 x) (n : Nat) : Settled q n n x := fun d s hd hs hf => by
  have hx := hx (d + n) s (by omega) hs hf
  have ht {t : RenderState} (hdn : d + n ≤ t.scope.depth)
      (h : t.scope.truncate (d + n) = s.scope.truncate (d + n)) :
      t.scope.truncate d = s.scope.truncate d := by
    rw [← Scope.truncate_truncate hd (Nat.le_add_right d n) hdn, h,
      Scope.truncate_truncate hd (Nat.le_add_right d n) (by omega)]
  generalize x.run s = o at hx
  cases hx with
  | done hd hi hc hw hq => exact .done hd hi hc hw fun hs => ht (by omega) (hq hs)
  | failed hd hi hw hq => exact .failed (by omega) hi hw fun hs => ht hd (hq hs)
  | exhausted => exact .exhausted

theorem nothing : Settled q i i (pure ()) := fun _ _ _ hs _ =>
  .done hs rfl rfl (List.suffix_refl _) fun _ => rfl

theorem write (piece : String) : Settled q i i (Run.write piece) := fun _ s _ hs _ =>
  Settles.done (t := s.write piece) hs rfl rfl (List.suffix_cons ..) fun _ => rfl

theorem change {f : Scope → Scope} (h : ∀ σ d, 0 < d → σ.depth = d + i →
    (f σ).depth = d + j ∧ (f σ).truncate d = σ.truncate d) : Settled q i j (Run.modifyScope f) :=
  fun d s hd hs _ =>
    have ⟨h₁, h₂⟩ := h s.scope d hd hs
    Settles.done (t := s.withScope (f s.scope)) h₁ rfl rfl (List.suffix_refl _) fun _ => h₂

theorem read {α : Type} {f : Scope → Except RenderFault α} {k : α → Run RenderState Unit}
    (q' : α → RenderState → Prop) (h : ∀ a σ, f σ = .ok a → Settled (q' a) i j (k a))
    (hq : ∀ s a, q s → f s.scope = .ok a → q' a s) : Settled q i j (Run.readScope f >>= k) :=
  fun d s hd hs hf => by
    cases ha : f s.scope with
    | ok a =>
      have hr : (Run.readScope f).run s = .done a s := Run.run_read_ok ha
      rw [Run.run_bind_done hr]
      exact (h a _ ha d s hd hs hf).imp fun hs => hq s a hs ha
    | error fault =>
      have hr : (Run.readScope f).run s = .failed fault s := Run.run_read_error ha
      rw [Run.run_bind_failed hr]
      exact .failed (by omega) ⟨#[], by simp⟩ (List.suffix_refl _) fun _ => rfl

theorem append (hx : Settled p i j x) (hy : Settled r j n y) (h₁ : ∀ s, q s → p s)
    (h₂ : ∀ s t, q s → x.run s = .done () t → r t) : Settled q i n (do x; y) := fun d s hd hs hf => by
  have hx := hx d s hd hs hf
  generalize ho : x.run s = o at hx
  cases hx with
  | @done t hdt hi hc hw hq =>
    rw [Run.run_bind_done ho]
    have hy := hy d t hd hdt (by rwa [RenderState.FillsBalanced, hi])
    generalize y.run t = o at hy
    cases hy with
    | done hd' hi' hc' hw' hq' =>
      exact .done hd' (hi'.trans hi) (hc'.trans hc) (hw.trans hw') fun hs =>
        (hq' (h₂ s t hs ho)).trans (hq (h₁ s hs))
    | failed hd' hi' hw' hq' =>
      exact .failed hd' (hi ▸ hi') (hw.trans hw') fun hs => (hq' (h₂ s t hs ho)).trans (hq (h₁ s hs))
    | exhausted => exact .exhausted
  | failed hd hi hw hq =>
    rw [Run.run_bind_failed ho]
    exact .failed hd hi hw fun hs => hq (h₁ s hs)
  | exhausted =>
    rw [Run.run_bind_exhausted ho]
    exact .exhausted

theorem inFrame (hx : Settled p 1 1 x) (hq : ∀ s, q s → p (s.withScope s.scope.push)) :
    Settled q 0 0 (Run.inFrame x) := by
  have hpush : Settled q 0 1 (Run.modifyScope Scope.push) := change fun σ d hd hs =>
    ⟨by rw [Scope.depth_push]; omega, Scope.truncate_push (by omega) hd⟩
  have hpop : Settled (fun _ => True) 1 0 (Run.modifyScope Scope.pop) := change fun σ d hd hs =>
    ⟨Scope.depth_pop hs hd, Scope.truncate_pop (by omega) hd⟩
  refine hpush.append (r := fun s => p s) ?_ (fun _ h => h) fun s t hs ht => ?_
  · exact hx.append hpop (fun _ h => h) fun _ _ _ _ => trivial
  · cases ht
    exact hq s hs

end Settled

namespace RenderContext

variable (context : RenderContext) {q p : RenderState → Prop} {x : Run RenderState Unit}

theorem settled_define (kind : BindingKind) (name : String) (e : LocatedExpression) {n : Nat}
    (hn : n ≠ 0) (hq : ∀ s, q s → kind = .innermost) :
    Settled q n n (context.define kind name e) := fun d s hd hs _ => by
  unfold define
  cases hb : context.bind kind name e s.scope with
  | ok τ =>
    have hr : (Run.readScope (context.bind kind name e)).run s = .done τ s := Run.run_read_ok hb
    rw [Run.run_bind_done hr]
    refine .done (t := s.withScope τ) ((context.depth_bind hb).trans hs) rfl rfl (List.suffix_refl _)
      fun h => ?_
    have hk := hq s h
    obtain ⟨v, -, ⟨-, rfl⟩ | ⟨hr, -⟩ | ⟨he, -⟩⟩ := context.bind_cases hb
    · exact Scope.truncate_defineLocal (by omega) hd name v
    · rw [hk] at hr; cases hr
    · rw [hk] at he; cases he
  | error fault =>
    have hr : (Run.readScope (context.bind kind name e)).run s = .failed fault s :=
      Run.run_read_error hb
    rw [Run.run_bind_failed hr]
    exact .failed (by omega) ⟨#[], by simp⟩ (List.suffix_refl _) fun _ => rfl

theorem settled_element (tag : TagPlan) (hx : Settled p 0 0 x)
    (ho : ∀ s, q s → context.omits s.scope tag.omission = .ok true → p s)
    (ht : ∀ s start, q s → context.omits s.scope tag.omission = .ok false →
      context.startTag s.scope tag = .ok start → p (s.write start)) :
    Settled q 0 0 (context.element tag x) := by
  refine .read (fun omitted s => q s ∧ context.omits s.scope tag.omission = .ok omitted)
    (fun omitted _ _ => ?_) fun s omitted hs h => ⟨hs, h⟩
  cases omitted with
  | true => exact hx.mono fun s ⟨hs, h⟩ => ho s hs h
  | false =>
    refine .read (fun start s => p (s.write start)) (fun start _ _ => ?_)
      fun s start ⟨hs, h⟩ hst => ht s start hs h hst
    refine (Settled.write start).append (p := fun _ => True) ?_ (fun _ _ => trivial) (r := p)
      fun s t hs hw => ?_
    · exact hx.append (.write _) (fun _ h => h) (r := fun _ => True) fun _ _ _ _ => trivial
    · cases hw
      exact hs

theorem settled_repeatFrom (name : String) (loops : Fields Value) (length : Nat)
    (hx : Settled p 0 0 x) : ∀ (items : List Value) (index : Nat),
    Settled (fun s => ∀ t, Iterates name loops length x index items s t → p t) 1 1
      (repeatFrom name loops length x index items)
  | [], _ => .nothing
  | item :: items, index => by
    have hitem : Settled (fun _ => True) 1 1
        (Run.modifyScope (itemScope name loops length index item)) := .change fun σ d hd hs => by
      refine ⟨(depth_itemScope ..).trans hs, ?_⟩
      rw [itemScope, Scope.truncate_defineLocal (by rw [Scope.depth_defineLocal]; omega) hd,
        Scope.truncate_defineLocal (by omega) hd]
    refine hitem.append (r := fun s => p s ∧ ∀ t u, x.run s = .done () t →
      Iterates name loops length x (index + 1) items t u → p u) ?_ (fun _ _ => trivial)
      fun s t hs ht => ?_
    · exact (hx.lift 1).append (settled_repeatFrom name loops length hx items (index + 1))
        (fun s hs => hs.1) fun s t hs ht u hu => hs.2 t u ht hu
    · cases ht
      exact ⟨hs _ .here, fun t u ht hu => hs u (.later ht hu)⟩

theorem settled_loop (name : String) (items : LocatedExpression) (hx : Settled p 0 0 x)
    (hn : ∀ s, q s → context.loopItems s.scope items = .ok none → p s)
    (hv : ∀ s values t, q s → context.loopItems s.scope items = .ok (some values) →
      Iterates name (outerLoops s.scope) values.length x 0 values (s.withScope s.scope.push) t → p t) :
    Settled q 0 0 (context.loop name items x) := by
  refine .read (fun found s => q s ∧ context.loopItems s.scope items = .ok found)
    (fun found _ _ => ?_) fun s found hs h => ⟨hs, h⟩
  cases found with
  | none => exact hx.mono fun s ⟨hs, h⟩ => hn s hs h
  | some values =>
    intro d s hd hs hf
    rw [Run.run_bind_done (Run.run_get s)]
    exact ((settled_repeatFrom name _ _ hx values 0).inFrame (q := fun t => ∀ u, Iterates name
      (outerLoops s.scope) values.length x 0 values (t.withScope t.scope.push) u → p u)
      (fun _ h => h) d s hd hs hf).imp fun ⟨hq, h⟩ t ht => hv s values t hq h ht

/-- What is taken back when a block has failed: all but what it has bound in frames from before. -/
theorem backTo_of_settled (hx : Settled q 0 0 x) {s t : RenderState} (hf : s.FillsBalanced)
    {fault : RenderFault} (h : x.run s = .failed fault t) :
    t.backTo s.mark = s.withScope (t.scope.truncate s.scope.depth) ∧
      (t.scope.truncate s.scope.depth).depth = s.scope.depth ∧
      (q s → t.scope.truncate s.scope.depth = s.scope) := by
  have hx := hx s.scope.depth s s.scope.depth_pos rfl hf
  rw [h] at hx
  cases hx with
  | failed hd hi hw hq =>
    exact ⟨RenderState.backTo_mark hi hw, Scope.depth_truncate s.scope.depth_pos hd, fun hs => by
      rw [hq hs, Scope.truncate_depth]⟩

theorem run_recover {s t : RenderState} {σ : Scope} (handler : LocatedExpression) (asMarkup : Bool)
    (fault : RenderFault) (h : t.backTo s.mark = s.withScope σ) :
    (context.recover handler asMarkup s.mark fault).run t =
      match context.handlerText handler asMarkup fault σ with
      | .ok text => .done () ((s.withScope σ).write text)
      | .error again => .failed again (s.withScope σ) := by
  rw [recover, Run.run_bind_done (Run.run_modify _ t), h]
  cases hh : context.handlerText handler asMarkup fault σ with
  | ok text =>
    have hr : (Run.readScope (context.handlerText handler asMarkup fault)).run (s.withScope σ) =
      .done text _ := Run.run_read_ok hh
    rw [Run.run_bind_done hr]
    rfl
  | error again =>
    have hr : (Run.readScope (context.handlerText handler asMarkup fault)).run (s.withScope σ) =
      .failed again _ := Run.run_read_error hh
    rw [Run.run_bind_failed hr]

theorem settled_guard (handler : LocatedExpression) (asMarkup : Bool) (hx : Settled q 0 0 x) :
    Settled q 0 0 (context.guard handler asMarkup x) := fun d s hd hs hf => by
  have h := hx d s hd hs hf
  simp only [guard]
  cases ho : x.run s with
  | done a t => rwa [ho] at h
  | exhausted => exact .exhausted
  | failed fault t =>
    simp only
    split
    · obtain ⟨hb, hdt, hq⟩ := backTo_of_settled hx hf ho
      rw [context.run_recover handler asMarkup fault hb]
      split
      · refine Settles.done (t := RenderState.write _ _) (hdt.trans hs) rfl rfl (List.suffix_cons ..)
          fun h => ?_
        exact congrArg (Scope.truncate · d) (hq h)
      · refine Settles.failed (t := s.withScope _) ?_ ⟨#[], by simp [RenderState.withScope]⟩
          (List.suffix_refl _) fun h => congrArg (Scope.truncate · d) (hq h)
        show d ≤ (t.scope.truncate s.scope.depth).depth
        omega
    · rwa [ho] at h

theorem settled_slot {enter : Block → Run RenderState Unit} {r : Block → RenderState → Prop}
    (name : String) (hx : Settled p 0 0 x)
    (henter : ∀ b : Block, b.AllBalanced → Settled (r b) 0 0 (enter b))
    (hn : ∀ s, q s → s.fill? name = none → p s)
    (hs : ∀ s body caller, q s → s.fill? name = some (body, caller) → r body (s.within caller)) :
    Settled q 0 0 (slot enter name x) := fun d s hd hds hf => by
  rw [slot, Run.run_bind_done (Run.run_get s)]
  cases hfill : s.fill? name with
  | none => exact (hx d s hd hds hf).imp fun h => hn s h hfill
  | some fill =>
    obtain ⟨body, caller⟩ := fill
    have h := (henter body (hf.allBalanced hfill) d (s.within caller) hd hds hf).imp
      fun h : q s => hs s body caller h hfill
    rw [Run.run_bind_done (Run.run_modify _ s)]
    generalize ho : (enter body).run (s.within caller) = o at h
    cases h with
    | done hd hi hc hw hq =>
      rw [Run.run_bind_done ho, Run.run_modify]
      exact .done hd hi rfl hw hq
    | failed hd hi hw hq =>
      rw [Run.run_bind_failed ho]
      exact .failed hd hi hw hq
    | exhausted =>
      rw [Run.run_bind_exhausted ho]
      exact .exhausted

theorem mem_of_prepareCall {σ : Scope} {callee : MacroTarget} {arguments : List (String × Argument)}
    {location : Location} {m : Macro} {bindings : List (String × Value)}
    (h : context.prepareCall σ callee arguments location = .ok (m, bindings)) : m ∈ context.macros := by
  unfold prepareCall at h
  obtain ⟨id, -, h⟩ := bind_eq_ok.1 h
  split at h
  · cases h
  · rename_i found hm
    split at h
    · cases h
    · obtain ⟨values, -, h⟩ := bind_eq_ok.1 h
      cases h
      exact List.mem_of_getElem? hm

theorem settled_call {enter : Block → Run RenderState Unit} {r : Block → RenderState → Prop}
    (callee : MacroTarget) (fills : List (String × Block)) (arguments : List (String × Argument))
    (location : Location) (hm : ∀ m ∈ context.macros, m.body.AllBalanced)
    (hfills : ∀ b ∈ Block.ofFills fills, b.IsBalanced)
    (henter : ∀ b : Block, b.AllBalanced → Settled (r b) 0 0 (enter b))
    (hq : ∀ s m bindings, q s →
      context.prepareCall s.scope callee arguments location = .ok (m, bindings) →
      r m.body ((s.enter fills).withScope (defineAll bindings s.scope.push))) :
    Settled q 0 0 (context.call enter callee fills arguments location) := by
  refine .read (fun found s => q s ∧
    context.prepareCall s.scope callee arguments location = .ok found) (fun (m, bindings) σ hσ => ?_)
    fun s found hs h => ⟨hs, h⟩
  intro d s hd hds hf
  rw [Run.run_bind_done (Run.run_get s), Run.run_bind_done (Run.run_modify _ s)]
  have hbind : Settled (fun _ => True) 1 1 (Run.modifyScope (defineAll bindings)) := .change
    fun σ d hd hσ => ⟨(depth_defineAll ..).trans hσ, truncate_defineAll (by omega) hd bindings⟩
  have hbody := (hbind.append ((henter m.body (hm m (context.mem_of_prepareCall hσ))).lift 1)
    (q := fun t => ∀ u, (Run.modifyScope (defineAll bindings)).run t = .done () u → r m.body u)
    (fun _ _ => trivial) fun _ u ht hu => ht u hu).inFrame (q := fun t : RenderState =>
      r m.body (t.withScope (defineAll bindings t.scope.push))) fun t ht u hu => by cases hu; exact ht
  have hfs : (s.enter fills).FillsBalanced := fun call hc => by
    rcases Array.mem_push.1 hc with hc | rfl
    · exact hf call hc
    · exact hfills
  have h := (hbody d (s.enter fills) hd hds hfs).imp fun hqs : q s ∧
    context.prepareCall s.scope callee arguments location = .ok (m, bindings) =>
      hq s m bindings hqs.1 hqs.2
  generalize ho : (Run.inFrame _).run (s.enter fills) = o at h
  cases h with
  | done hd hi hc hw hq =>
    rw [Run.run_bind_done ho, Run.run_modify]
    exact .done (t := RenderState.leave _ s.current) hd
      (by simp [RenderState.leave, RenderState.enter, hi]) rfl hw hq
  | failed hd hi hw hq =>
    rw [Run.run_bind_failed ho]
    obtain ⟨more, hi⟩ := hi
    exact .failed hd ⟨#[⟨fills, s.current⟩] ++ more, by simp [hi, RenderState.enter]⟩ hw hq
  | exhausted =>
    rw [Run.run_bind_exhausted ho]
    exact .exhausted

section

variable {context} {n : Nat}

mutual

theorem operation_settled (hm : ∀ m ∈ context.macros, m.body.AllBalanced)
    (henter : ∀ b : Block, b.AllBalanced →
      Settled (fun s => ∀ k, n = k + 1 → context.DefinesLocally k b s) 0 0 (context.enterWithin n b)) :
    ∀ (op : Operation) {i j : Nat}, op.level? i = some j → (∀ b ∈ op.blocks, b.IsBalanced) →
      Settled (context.DefinesLocally n [op]) i j (context.operation (context.enterWithin n) op)
  | .literal s, i, j, hl, hb => by
    cases hl
    exact .write s
  | .pushScope, i, j, hl, hb => by
    cases hl
    exact .change fun σ d hd hs => ⟨by rw [Scope.depth_push, hs]; rfl, Scope.truncate_push (by omega) hd⟩
  | .popScope, i, j, hl, hb => by
    simp only [Operation.level?, Option.ite_none_left_eq_some, Option.some.injEq] at hl
    exact .change fun σ d hd hs =>
      ⟨Scope.depth_pop (by omega) (by omega), Scope.truncate_pop (by omega) hd⟩
  | .define kind name e, i, j, hl, hb => by
    simp only [Operation.level?, Option.ite_none_left_eq_some, Option.some.injEq] at hl
    obtain ⟨hi, rfl⟩ := hl
    exact context.settled_define kind name e hi fun s hs => hs .here
  | .emit e asMarkup fallback, i, j, hl, hb => by
    cases hl
    have hx := operations_settled hm henter fallback (hb fallback (by simp [Operation.blocks]))
      fun b h => hb b (by simp [Operation.blocks, h])
    refine .read (fun v s => context.DefinesLocally n [.emit e asMarkup fallback] s ∧
      context.value s.scope e = .ok v) (fun v _ _ => ?_) fun s v hs h => ⟨hs, h⟩
    split
    · rename_i hv
      refine (hx.lift i).mono fun s ⟨hs, h⟩ => ?_
      exact hs.inside (.default h hv)
    · exact .write _
  | .condition test body, i, j, hl, hb => by
    cases hl
    have hx := operations_settled hm henter body (hb body (by simp [Operation.blocks]))
      fun b h => hb b (by simp [Operation.blocks, h])
    refine .read (fun v s => context.DefinesLocally n [.condition test body] s ∧
      context.value s.scope test = .ok v) (fun v _ _ => ?_) fun s v hs h => ⟨hs, h⟩
    split
    · rename_i hv
      refine (hx.lift i).mono fun s ⟨hs, h⟩ => ?_
      exact hs.inside (.holds h hv)
    · exact .nothing
  | .repeat name items body, i, j, hl, hb => by
    cases hl
    have hx := operations_settled hm henter body (hb body (by simp [Operation.blocks]))
      fun b h => hb b (by simp [Operation.blocks, h])
    refine (context.settled_loop name items hx (fun s hs h => hs.inside (.once h))
      fun s values t hs h hi => ?_).lift i
    exact hs.inside (.item h (by rwa [context.runBlock_eq]))
  | .element tag body, i, j, hl, hb => by
    cases hl
    have hx := operations_settled hm henter body (hb body (by simp [Operation.blocks]))
      fun b h => hb b (by simp [Operation.blocks, h])
    exact (context.settled_element tag hx (fun s hs h => hs.inside (.untagged h))
      fun s start hs h ht => hs.inside (.tagged h ht)).lift i
  | .onError body handler asMarkup, i, j, hl, hb => by
    cases hl
    have hx := operations_settled hm henter body (hb body (by simp [Operation.blocks]))
      fun b h => hb b (by simp [Operation.blocks, h])
    refine ((context.settled_guard handler asMarkup hx).mono fun s hs => ?_).lift i
    exact hs.inside .guarded
  | .callMacro callee fills arguments location, i, j, hl, hb => by
    cases hl
    refine (context.settled_call callee fills arguments location hm hb henter
      fun s m bindings hs h k hk => ?_).lift i
    subst hk
    exact hs.inside (.called h)
  | .slot name fallback, i, j, hl, hb => by
    cases hl
    have hx := operations_settled hm henter fallback (hb fallback (by simp [Operation.blocks]))
      fun b h => hb b (by simp [Operation.blocks, h])
    refine (settled_slot name hx henter (fun s hs h => hs.inside (.unfilled h))
      fun s body caller hs h k hk => ?_).lift i
    subst hk
    exact hs.inside (.filled h)

theorem operations_settled (hm : ∀ m ∈ context.macros, m.body.AllBalanced)
    (henter : ∀ b : Block, b.AllBalanced →
      Settled (fun s => ∀ k, n = k + 1 → context.DefinesLocally k b s) 0 0 (context.enterWithin n b)) :
    ∀ (ops : List Operation) {i j : Nat}, Block.level? ops i = some j →
      (∀ b ∈ Block.inner ops, b.IsBalanced) →
      Settled (context.DefinesLocally n ops) i j (context.operations (context.enterWithin n) ops)
  | [], i, j, hl, hb => by
    cases hl
    exact .nothing
  | op :: ops, i, j, hl, hb => by
    rw [Block.level?_cons] at hl
    obtain ⟨k, hk, hl⟩ := Option.bind_eq_some_iff.1 hl
    exact (operation_settled hm henter op hk fun b h => hb b (List.mem_append_left _ h)).append
      (operations_settled hm henter ops hl fun b h => hb b (List.mem_append_right _ h))
      (fun s hs => hs.head) fun s t hs ht => hs.tail ht

end

end

theorem enterWithin_settled (hm : ∀ m ∈ context.macros, m.body.AllBalanced) : ∀ (n : Nat) (b : Block),
    b.AllBalanced → Settled (fun s => ∀ k, n = k + 1 → context.DefinesLocally k b s) 0 0
      (context.enterWithin n b)
  | 0, _, _ => fun _ _ _ _ _ => .exhausted
  | n + 1, b, hb => by
    have hx := operations_settled hm (enterWithin_settled hm n) b (hb b (by simp))
      fun b' h => hb b' (by simp [h])
    rw [← runBlock_eq] at hx
    exact hx.mono fun s hs => hs n rfl

theorem block_settled (hm : ∀ m ∈ context.macros, m.body.AllBalanced) (n : Nat) (b : Block)
    (hb : b.AllBalanced) : Settled (context.DefinesLocally n b) 0 0 (context.runBlock n b) :=
  (context.enterWithin_settled hm (n + 1) b hb).mono fun s hs k hk => by
    cases hk
    exact hs

/-! ### What is executed below -/

section

variable {context}

theorem Iterates.fillsBalanced {name : String} {loops : Fields Value} {length : Nat}
    (hx : Settled q 0 0 x) {index : Nat} {items : List Value} {s t : RenderState}
    (h : Iterates name loops length x index items s t) (hf : s.FillsBalanced) : t.FillsBalanced := by
  induction h with
  | here => exact hf
  | @later index item items s t u hr _ ih =>
    refine ih ?_
    have hx := hx _ (s.withScope (itemScope name loops length index item s.scope))
      (Scope.depth_pos _) rfl hf
    rw [hr] at hx
    cases hx with
    | done hd hi hc hw hq => rwa [RenderState.FillsBalanced, hi]

/-- A block that is started from a balanced one is balanced, and so are the fills it finds. -/
theorem Starts.balanced (hm : ∀ m ∈ context.macros, m.body.AllBalanced) {n k : Nat} {op : Operation}
    {s t : RenderState} {body : Block} (h : context.Starts n op s k body t)
    (hb : ∀ b ∈ op.blocks, b.IsBalanced) (hf : s.FillsBalanced) :
    body.AllBalanced ∧ t.FillsBalanced := by
  cases h with
  | default | holds | once | untagged | guarded | unfilled => exact ⟨hb, hf⟩
  | tagged => exact ⟨hb, hf⟩
  | item h hi => exact ⟨hb, hi.fillsBalanced (context.block_settled hm n body hb) hf⟩
  | @called _ callee fills arguments location _ m bindings h =>
    refine ⟨hm m (context.mem_of_prepareCall h), fun call hc => ?_⟩
    rcases Array.mem_push.1 hc with hc | rfl
    · exact hf call hc
    · exact hb
  | filled h => exact ⟨hf.allBalanced h, hf⟩

theorem Executes.balanced (hm : ∀ m ∈ context.macros, m.body.AllBalanced) {n k : Nat} {ops : Block}
    {s u : RenderState} {op : Operation} (h : context.Executes n ops s k op u) {d i j : Nat}
    (hl : Block.level? ops i = some j) (hb : ∀ b ∈ Block.inner ops, b.IsBalanced) (hd : 0 < d)
    (hs : s.scope.depth = d + i) (hf : s.FillsBalanced) :
    (∀ b ∈ op.blocks, b.IsBalanced) ∧ u.FillsBalanced := by
  induction h generalizing d i j with
  | here => exact ⟨fun b h => hb b (List.mem_append_left _ h), hf⟩
  | @later n k op found ops s t u hr _ ih =>
    -- the operations before leave the level that balance says, and the calls as they were
    rw [Block.level?_cons] at hl
    obtain ⟨l, hl, hls⟩ := Option.bind_eq_some_iff.1 hl
    have h := operation_settled hm (context.enterWithin_settled hm n) op hl
      (fun b h => hb b (List.mem_append_left _ h)) d s hd hs hf
    rw [hr] at h
    cases h with
    | done hdt hi hc hw hq =>
      exact ih hls (fun b h => hb b (List.mem_append_right _ h)) hd hdt
        (by rwa [RenderState.FillsBalanced, hi])
  | @inside n m k op found ops body s t u hst _ ih =>
    obtain ⟨hbody, hft⟩ := hst.balanced hm (fun b h => hb b (List.mem_append_left _ h)) hf
    exact ih (hbody body (by simp)) (fun b h => hbody b (by simp [h])) t.scope.depth_pos rfl hft

end

end RenderContext

/-! ### Programs -/

/-- A state of a running program: what is filled in by the calls under way are blocks of the program. -/
def RenderState.IsOf (s : RenderState) (program : Program) : Prop :=
  ∀ call ∈ s.invocations, ∀ fill ∈ call.fills, fill.2 ∈ program.blocks

theorem RenderState.text_of_suffix {s t : RenderState} (h : s.written <:+ t.written) :
    ∃ more, t.text = s.text ++ more := by
  obtain ⟨pieces, hp⟩ := h
  exact ⟨String.join pieces.reverse, by simp [text, ← hp, String.join_append]⟩

namespace Program

variable {provider : ResourceProvider} {mode : TemplateMode} {source : TemplateSource}
  {program : Program} {context : RenderContext} {s : RenderState} {b : Block}

theorem allBalanced_of_mem (hc : compile provider mode source = .ok program)
    (hb : b ∈ program.blocks) : b.AllBalanced := fun _ h =>
  isBalanced_of_compile hc _ (mem_blocks hb h)

theorem allBalanced_of_macro (hc : compile provider mode source = .ok program) :
    ∀ m ∈ program.macros, m.body.AllBalanced := fun m hm =>
  allBalanced_of_mem hc <| List.mem_flatMap.2
    ⟨m.body, List.mem_cons_of_mem _ (List.mem_map.2 ⟨m, hm, rfl⟩), by simp⟩

theorem fillsBalanced_of_isOf (hc : compile provider mode source = .ok program)
    (hs : s.IsOf program) : s.FillsBalanced := fun call hcall =>
  Block.isBalanced_of_mem_ofFills fun fill hf => allBalanced_of_mem hc (hs call hcall fill hf)

/-- The stacks of a running program stay in step. A block that succeeds leaves the frames, the calls and
the current call as they were and adds to the output; one that fails only adds. So whenever a failure
handler that is executed takes over, all that is left of its block is what it has bound in the frames from
before, and nothing at all if its definitions are local. -/
theorem stacks_in_step (hc : compile provider mode source = .ok program)
    (hm : context.macros = program.macros) (n : Nat) (hs : s.IsOf program) (hb : b ∈ program.blocks) :
    (∀ t, (context.runBlock n b).run s = .done () t →
      t.scope.depth = s.scope.depth ∧ t.invocations = s.invocations ∧ t.current = s.current ∧
        ∃ more, t.text = s.text ++ more) ∧
    (∀ fault t, (context.runBlock n b).run s = .failed fault t →
      s.scope.depth ≤ t.scope.depth ∧ (∃ more, t.invocations = s.invocations ++ more) ∧
        ∃ more, t.text = s.text ++ more) ∧
    ∀ k body handler asMarkup u fault t,
      context.Executes n b s k (.onError body handler asMarkup) u →
      (context.runBlock k body).run u = .failed fault t → fault.isRecoverable →
      ∃ σ, σ.depth = u.scope.depth ∧ (context.DefinesLocally k body u → σ = u.scope) ∧
        (context.operation (context.enterWithin k) (.onError body handler asMarkup)).run u =
          match context.handlerText handler asMarkup fault σ with
          | .ok text => .done () ((u.withScope σ).write text)
          | .error again => .failed again (u.withScope σ) := by
  have hb := allBalanced_of_mem hc hb
  have hf := fillsBalanced_of_isOf hc hs
  have hm : ∀ m ∈ context.macros, m.body.AllBalanced := hm ▸ allBalanced_of_macro hc
  have h := context.block_settled hm n b hb s.scope.depth s s.scope.depth_pos rfl hf
  refine ⟨fun t ht => ?_, fun fault t ht => ?_, fun k body handler asMarkup u fault t he hr hf' => ?_⟩
  · rw [ht] at h
    cases h with
    | done hd hi hc hw hq => exact ⟨hd, hi, hc, RenderState.text_of_suffix hw⟩
  · rw [ht] at h
    cases h with
    | failed hd hi hw hq => exact ⟨hd, hi, RenderState.text_of_suffix hw⟩
  · obtain ⟨hbody, hu⟩ := he.balanced hm (hb b (by simp)) (fun b' h => hb b' (by simp [h]))
      s.scope.depth_pos rfl hf
    obtain ⟨hback, hd, hq⟩ := RenderContext.backTo_of_settled
      (context.block_settled hm k body hbody) hu hr
    refine ⟨t.scope.truncate u.scope.depth, hd, hq, ?_⟩
    rw [← context.run_recover handler asMarkup fault hback, RenderContext.operation,
      RenderContext.guard, ← context.runBlock_eq]
    simp only [hr, hf', if_true]

/-- A macro that fails in a frame of its own, called inside a handler. -/
def failingCall : TemplateSource :=
  ⟨"<b metal:define-macro=\"m\"><i tal:define=\"x 1\"><u tal:content=\"y\"></u></i></b>" ++
    "<p tal:on-error=\"nothing\"><a metal:use-macro=\"macros/m\"></a></p>", none⟩

theorem stacks_in_step_failingCall : ∃ program,
    compile (MemoryStore.provider []) .markup failingCall = .ok program ∧
    ∀ host n globals t,
      (RenderContext.runBlock ⟨program.macros, host, Value.text⟩ n program.body).run
        (.initial (.ofGlobals globals)) = .done () t →
      t.scope.depth = 1 ∧ t.invocations = #[] ∧ t.current = none := by
  have hd : (compile (MemoryStore.provider []) .markup failingCall).toOption.isSome := by decide +kernel
  cases hc : compile (MemoryStore.provider []) .markup failingCall with
  | error fault => rw [hc] at hd; cases hd
  | ok program =>
    refine ⟨program, rfl, fun host n globals t ht => ?_⟩
    have hm : (⟨program.macros, host, Value.text⟩ : RenderContext).macros = program.macros := rfl
    have hs : (RenderState.initial (.ofGlobals globals)).IsOf program := fun call hcall => by
      simp [RenderState.initial] at hcall
    have hb : program.body ∈ program.blocks := by simp [blocks]
    obtain ⟨hdepth, hcalls, hcurrent, -⟩ := (stacks_in_step hc hm n hs hb).1 t ht
    exact ⟨hdepth, hcalls, hcurrent⟩

end Program

end MarkupTemplate
