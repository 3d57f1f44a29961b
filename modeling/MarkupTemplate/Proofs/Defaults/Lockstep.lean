import MarkupTemplate.Proofs.Defaults.Recasts
import MarkupTemplate.Proofs.Render.Executions
import MarkupTemplate.Proofs.Render.Rewriting

/-!
# Recast programs run as before

If the expressions that a removal takes out give `default` wherever they are evaluated (`Removal.IsDefault`), a
program in which some of them have been replaced by `default` does the same, step by step. The calls under way hold
recast fills in the second run; all else in the states is the same (`Removal.RecastsState`).
-/

namespace MarkupTemplate

namespace Removal

variable {r : Removal} {context : RenderContext}

/-- An operation, executed where these variables are bound, evaluates an expression that a removal takes out. -/
inductive Reads (context : RenderContext) (σ : Scope) : Removal → Operation → LocatedExpression → Prop
  | content {e : LocatedExpression} {asMarkup : Bool} {fallback : Block} :
      Reads context σ (.content e.location) (.emit e asMarkup fallback) e
  | replace {e : LocatedExpression} {asMarkup : Bool} {fallback : Block} :
      Reads context σ (.replace e.location) (.emit e asMarkup fallback) e
  | condition {test : LocatedExpression} {body : Block} :
      Reads context σ (.condition test.location) (.condition test body) test
  | loop {name : String} {items : LocatedExpression} {body : Block} :
      Reads context σ (.loop items.location) (.repeat name items body) items
  | entry {tag : TagPlan} {body : Block} {before after : List ComputedAttribute} {a : ComputedAttribute}
      {vs : List Value} (ho : context.omits σ tag.omission = .ok false) (hc : tag.computed = before ++ a :: after)
      (hv : context.attributeValues σ before = .ok vs) :
      Reads context σ (.entry a.name a.value.location) (.element tag body) a.value

/-- Wherever a block that runs from a state evaluates what a removal takes out, the value is `default`. -/
def IsDefault (r : Removal) (context : RenderContext) (n : Nat) (block : Block) (s : RenderState) : Prop :=
  ∀ {k op u e}, context.Executes n block s k op u → r.Reads context u.scope op e →
    context.value u.scope e = .ok .default

namespace IsDefault

variable {n m : Nat} {op : Operation} {ops body : Block} {s t : RenderState}

theorem head (h : r.IsDefault context n (op :: ops) s) : r.IsDefault context n [op] s := fun he => by
  cases he with
  | here => exact h .here
  | later _ he => cases he
  | inside hs he => exact h (.inside hs he)

theorem tail (h : r.IsDefault context n (op :: ops) s)
    (hr : (context.operation (context.enterWithin n) op).run s = .done () t) : r.IsDefault context n ops t :=
  fun he => h (.later hr he)

theorem inside (h : r.IsDefault context n (op :: ops) s) (hs : context.Starts n op s m body t) :
    r.IsDefault context m body t := fun he => h (.inside hs he)

end IsDefault

/-! ### States -/

/-- The calls are made from the same call, and the fills of the second are recast. -/
def RecastsCall (r : Removal) (call call' : Invocation) : Prop :=
  call'.caller = call.caller ∧ r.RecastsFills call.fills call'.fills

/-- The states differ at most in the fills of calls under way, which are recast in the second. -/
structure RecastsState (r : Removal) (s s' : RenderState) : Prop where
  scope : s'.scope = s.scope
  written : s'.written = s.written
  invocations : List.Forall₂ r.RecastsCall s.invocations.toList s'.invocations.toList
  current : s'.current = s.current

namespace RecastsState

variable {s s' : RenderState}

theorem refl (s : RenderState) : r.RecastsState s s where
  scope := rfl
  written := rfl
  invocations := List.forall₂_same.2 fun call _ => ⟨rfl, RecastsFills.refl call.fills⟩
  current := rfl

theorem withScope (h : r.RecastsState s s') (σ : Scope) : r.RecastsState (s.withScope σ) (s'.withScope σ) :=
  ⟨rfl, h.written, h.invocations, h.current⟩

theorem write (h : r.RecastsState s s') (piece : String) : r.RecastsState (s.write piece) (s'.write piece) :=
  ⟨h.scope, congrArg (piece :: ·) h.written, h.invocations, h.current⟩

theorem within (h : r.RecastsState s s') (call : Option Nat) : r.RecastsState (s.within call) (s'.within call) :=
  ⟨h.scope, h.written, h.invocations, rfl⟩

theorem size (h : r.RecastsState s s') : s'.invocations.size = s.invocations.size :=
  h.invocations.length_eq.symm

theorem enter (h : r.RecastsState s s') {fills fills' : List (String × Block)}
    (hf : r.RecastsFills fills fills') : r.RecastsState (s.enter fills) (s'.enter fills') where
  scope := h.scope
  written := h.written
  invocations := by
    simp only [RenderState.enter, Array.toList_push]
    exact List.rel_append h.invocations (.cons ⟨h.current, hf⟩ .nil)
  current := congrArg some h.size

theorem leave (h : r.RecastsState s s') (caller : Option Nat) :
    r.RecastsState (s.leave caller) (s'.leave caller) where
  scope := h.scope
  written := h.written
  invocations := by
    simp only [RenderState.leave, Array.toList_pop, List.dropLast_eq_take]
    rw [h.invocations.length_eq]
    exact List.forall₂_take _ h.invocations
  current := rfl

theorem mark (h : r.RecastsState s s') : s'.mark = s.mark := by
  simp only [RenderState.mark, h.scope, h.written, h.size, h.current]

theorem backTo (h : r.RecastsState s s') (m : RenderMark) : r.RecastsState (s.backTo m) (s'.backTo m) where
  scope := congrArg (Scope.truncate · m.depth) h.scope
  written := by simp only [RenderState.backTo, h.written]
  invocations := by
    simp only [RenderState.backTo, Array.take_eq_extract, Array.toList_extract, List.extract_eq_take_drop]
    exact List.forall₂_take _ h.invocations
  current := rfl

theorem fill? (h : r.RecastsState s s') (name : String) :
    Option.Rel (fun fill fill' => r.RecastsAll fill.1 fill'.1 ∧ fill'.2 = fill.2) (s.fill? name)
      (s'.fill? name) := by
  unfold RenderState.fill?
  rw [h.current]
  cases s.current with
  | none => exact .none
  | some i =>
    have hcall := rel_getElem? h.invocations i
    rw [Array.getElem?_toList, Array.getElem?_toList] at hcall
    simp only [Option.bind_eq_bind, Option.bind_some]
    generalize s.invocations[i]? = call at hcall ⊢
    generalize s'.invocations[i]? = call' at hcall ⊢
    cases hcall with
    | none => exact .none
    | @some call call' hcall =>
      have hfill := rel_lookup (recastsFills_iff.1 hcall.2) name
      rw [Option.bind_some, Option.bind_some, hcall.1]
      generalize call.fills.lookup name = body at hfill ⊢
      generalize call'.fills.lookup name = body' at hfill ⊢
      cases hfill with
      | none => exact .none
      | some hbody => exact .some ⟨hbody, rfl⟩

end RecastsState

/-! ### Runs -/

/-- The runs end alike, in states that are related. -/
inductive Ends (r : Removal) : Outcome RenderState Unit → Outcome RenderState Unit → Prop
  | done {s s' : RenderState} (h : r.RecastsState s s') : Ends r (.done () s) (.done () s')
  | failed (fault : RenderFault) {s s' : RenderState} (h : r.RecastsState s s') :
      Ends r (.failed fault s) (.failed fault s')
  | exhausted : Ends r .exhausted .exhausted

/-- From related states the runs end alike, if something holds where the first one starts. -/
def Along (r : Removal) (q : RenderState → Prop) (x x' : Run RenderState Unit) : Prop :=
  ∀ s s', q s → r.RecastsState s s' → r.Ends (x.run s) (x'.run s')

namespace Along

variable {q p t : RenderState → Prop} {x x' y y' : Run RenderState Unit}

theorem mono (hx : r.Along p x x') (h : ∀ s, q s → p s) : r.Along q x x' :=
  fun s s' hq hs => hx s s' (h s hq) hs

theorem nothing : r.Along q (pure ()) (pure ()) := fun _ _ _ hs => .done hs

theorem write (piece : String) : r.Along q (Run.write piece) (Run.write piece) :=
  fun _ _ _ hs => .done (hs.write piece)

theorem change (f : Scope → Scope) : r.Along q (Run.modifyScope f) (Run.modifyScope f) := fun s s' _ hs => by
  show r.Ends (.done () (s.withScope (f s.scope))) (.done () (s'.withScope (f s'.scope)))
  rw [hs.scope]
  exact .done (hs.withScope _)

theorem read {α : Type} {f f' : Scope → Except RenderFault α} {k k' : α → Run RenderState Unit}
    (q' : α → RenderState → Prop) (hf : ∀ s, q s → f' s.scope = f s.scope)
    (h : ∀ a, r.Along (q' a) (k a) (k' a)) (hq : ∀ s a, q s → f s.scope = .ok a → q' a s) :
    r.Along q (Run.readScope f >>= k) (Run.readScope f' >>= k') := fun s s' hqs hs => by
  have hf' : f' s'.scope = f s.scope := by rw [hs.scope, hf s hqs]
  cases ha : f s.scope with
  | ok a =>
    have hr : (Run.readScope f).run s = .done a s := Run.run_read_ok ha
    have hr' : (Run.readScope f').run s' = .done a s' := Run.run_read_ok (hf'.trans ha)
    rw [Run.run_bind_done hr, Run.run_bind_done hr']
    exact h a s s' (hq s a hqs ha) hs
  | error fault =>
    have hr : (Run.readScope f).run s = .failed fault s := Run.run_read_error ha
    have hr' : (Run.readScope f').run s' = .failed fault s' := Run.run_read_error (hf'.trans ha)
    rw [Run.run_bind_failed hr, Run.run_bind_failed hr']
    exact .failed fault hs

theorem append (hx : r.Along p x x') (hy : r.Along t y y') (h₁ : ∀ s, q s → p s)
    (h₂ : ∀ s u, q s → x.run s = .done () u → t u) : r.Along q (do x; y) (do x'; y') := fun s s' hq hs => by
  have hends := hx s s' (h₁ s hq) hs
  generalize ho : x.run s = o at hends
  generalize ho' : x'.run s' = o' at hends
  cases hends with
  | done hu =>
    rw [Run.run_bind_done ho, Run.run_bind_done ho']
    exact hy _ _ (h₂ s _ hq ho) hu
  | failed fault hu =>
    rw [Run.run_bind_failed ho, Run.run_bind_failed ho']
    exact .failed fault hu
  | exhausted =>
    rw [Run.run_bind_exhausted ho, Run.run_bind_exhausted ho']
    exact .exhausted

theorem inFrame (hx : r.Along p x x') (hq : ∀ s, q s → p (s.withScope s.scope.push)) :
    r.Along q (Run.inFrame x) (Run.inFrame x') := by
  refine (change Scope.push).append (p := fun _ => True) (t := p) ?_ (fun _ _ => trivial) fun s u hs hu => ?_
  · exact hx.append (change Scope.pop) (fun _ h => h) (t := fun _ => True) fun _ _ _ _ => trivial
  · cases hu
    exact hq s hs

end Along

/-! ### Operations -/

section

variable {q p : RenderState → Prop} {x x' : Run RenderState Unit} {macros : List Macro}

theorem attributeValues_recast {σ : Scope} {computed computed' : List ComputedAttribute}
    (hc : List.Forall₂ r.RecastsAttribute computed computed')
    (h : ∀ before a after vs, computed = before ++ a :: after → context.attributeValues σ before = .ok vs →
      r = .entry a.name a.value.location → context.value σ a.value = .ok .default) :
    context.attributeValues σ computed' = context.attributeValues σ computed := by
  induction hc with
  | nil => rfl
  | @cons a a' rest rest' ha _ ih =>
    have hvalue : context.value σ a'.value = context.value σ a.value := by
      obtain rfl | ⟨hr, rfl⟩ := ha
      · rfl
      · exact (h [] a rest [] rfl rfl hr).symm
    simp only [RenderContext.attributeValues, List.mapM_cons] at ih ⊢
    rw [hvalue]
    cases hv : context.value σ a.value with
    | error fault => rfl
    | ok v =>
      rw [ih fun before b after vs hrest hvs hr => ?_]
      refine h (a :: before) b after (v :: vs) (congrArg (a :: ·) hrest) ?_ hr
      rw [RenderContext.attributeValues, List.mapM_cons, hv]
      exact congrArg (· >>= fun vs => pure (v :: vs)) hvs

theorem names_recast {computed computed' : List ComputedAttribute}
    (hc : List.Forall₂ r.RecastsAttribute computed computed') :
    computed'.map ComputedAttribute.name = computed.map ComputedAttribute.name := by
  induction hc with
  | nil => rfl
  | cons ha _ ih =>
    rw [List.map_cons, List.map_cons, ih]
    obtain rfl | ⟨-, rfl⟩ := ha <;> rfl

theorem startTag_recast {σ : Scope} {tag : TagPlan} {body : Block} {computed : List ComputedAttribute}
    (hc : List.Forall₂ r.RecastsAttribute tag.computed computed)
    (ho : context.omits σ tag.omission = .ok false)
    (h : ∀ {e}, r.Reads context σ (.element tag body) e → context.value σ e = .ok .default) :
    RenderContext.startTag { context with macros } σ { tag with computed } = context.startTag σ tag := by
  have hvalues : context.attributeValues σ computed = context.attributeValues σ tag.computed :=
    attributeValues_recast hc fun _ _ _ _ hcomputed hvs hr => h (hr ▸ .entry ho hcomputed hvs)
  rw [context.startTag_macros, TagPlan.startTag_eq_map, TagPlan.startTag_eq_map]
  dsimp only
  rw [hvalues]
  refine congrArg (· <$> context.attributeValues σ tag.computed) (funext fun vs => ?_)
  simp only [TagPlan.valuesOf_eq, TagPlan.entries, names_recast hc]
  rfl

theorem along_element {tag : TagPlan} {computed : List ComputedAttribute} (hx : r.Along p x x')
    (hs : ∀ s, q s → context.omits s.scope tag.omission = .ok false →
      RenderContext.startTag { context with macros } s.scope { tag with computed } = context.startTag s.scope tag)
    (ho : ∀ s, q s → context.omits s.scope tag.omission = .ok true → p s)
    (ht : ∀ s start, q s → context.omits s.scope tag.omission = .ok false →
      context.startTag s.scope tag = .ok start → p (s.write start)) :
    r.Along q (context.element tag x) (RenderContext.element { context with macros } { tag with computed } x') := by
  refine .read (fun omitted s => q s ∧ context.omits s.scope tag.omission = .ok omitted) (fun _ _ => rfl)
    (fun omitted => ?_) fun s omitted hs h => ⟨hs, h⟩
  cases omitted with
  | true => exact hx.mono fun s ⟨hs, h⟩ => ho s hs h
  | false =>
    refine .read (fun start s => p (s.write start)) (fun s ⟨hq, h⟩ => hs s hq h) (fun start => ?_)
      fun s start ⟨hs, h⟩ hst => ht s start hs h hst
    refine (Along.write start).append (p := fun _ => True) ?_ (fun _ _ => trivial) (t := p) fun s u hs hw => ?_
    · exact hx.append (.write _) (fun _ h => h) (t := fun _ => True) fun _ _ _ _ => trivial
    · cases hw
      exact hs

theorem along_repeatFrom (name : String) (loops : Fields Value) (length : Nat) (hx : r.Along p x x') :
    ∀ (items : List Value) (index : Nat),
      r.Along (fun s => ∀ u, RenderContext.Iterates name loops length x index items s u → p u)
        (RenderContext.repeatFrom name loops length x index items)
        (RenderContext.repeatFrom name loops length x' index items)
  | [], _ => .nothing
  | item :: items, index => by
    refine (Along.change _).append (p := fun _ => True) (t := fun s => p s ∧ ∀ u v, x.run s = .done () u →
      RenderContext.Iterates name loops length x (index + 1) items u v → p v) ?_ (fun _ _ => trivial)
      fun s u hs hu => ?_
    · exact hx.append (along_repeatFrom name loops length hx items (index + 1)) (fun s hs => hs.1)
        fun s u hs hu v hv => hs.2 u v hu hv
    · cases hu
      exact ⟨hs _ .here, fun u v hu hv => hs v (.later hu hv)⟩

theorem along_loop (name : String) {items items' : LocatedExpression} (hx : r.Along p x x')
    (hi : ∀ s, q s → context.loopItems s.scope items' = context.loopItems s.scope items)
    (hn : ∀ s, q s → context.loopItems s.scope items = .ok none → p s)
    (hv : ∀ s values u, q s → context.loopItems s.scope items = .ok (some values) →
      RenderContext.Iterates name (RenderContext.outerLoops s.scope) values.length x 0 values
        (s.withScope s.scope.push) u → p u) :
    r.Along q (context.loop name items x) (RenderContext.loop { context with macros } name items' x') := by
  refine .read (fun found s => q s ∧ context.loopItems s.scope items = .ok found) hi (fun found => ?_)
    fun s found hs h => ⟨hs, h⟩
  cases found with
  | none => exact hx.mono fun s ⟨hs, h⟩ => hn s hs h
  | some values =>
    intro s s' ⟨hq, hitems⟩ hs
    rw [Run.run_bind_done (Run.run_get s), Run.run_bind_done (Run.run_get s'), hs.scope]
    refine (along_repeatFrom name _ _ hx values 0).inFrame (q := fun u => u = s) (fun u hu v hv' => ?_) s s' rfl hs
    subst hu
    exact hv u values v hq hitems hv'

theorem along_guard (handler : LocatedExpression) (asMarkup : Bool) (hx : r.Along q x x') :
    r.Along q (context.guard handler asMarkup x)
      (RenderContext.guard { context with macros } handler asMarkup x') := fun s s' hq hs => by
  have hends := hx s s' hq hs
  simp only [RenderContext.guard]
  generalize x.run s = o at hends ⊢
  generalize x'.run s' = o' at hends ⊢
  cases hends with
  | done hu => exact .done hu
  | exhausted => exact .exhausted
  | @failed fault u u' hu =>
    dsimp only
    split
    · unfold RenderContext.recover
      rw [Run.run_bind_done (Run.run_modify _ u), Run.run_bind_done (Run.run_modify _ u'), hs.mark]
      have hrecover : r.Along (fun _ => True)
          (Run.readScope (context.handlerText handler asMarkup fault) >>= Run.write)
          (Run.readScope (RenderContext.handlerText { context with macros } handler asMarkup fault) >>= Run.write) :=
        .read (fun _ _ => True) (fun _ _ => rfl) .write fun _ _ _ _ => trivial
      exact hrecover _ _ trivial (hu.backTo s.mark)
    · exact .failed fault hu

theorem along_slot {enter enter' : Block → Run RenderState Unit} {t : Block → RenderState → Prop} (name : String)
    (hx : r.Along p x x')
    (henter : ∀ b b', r.RecastsAll b b' → r.Along (t b) (enter b) (enter' b'))
    (hn : ∀ s, q s → s.fill? name = none → p s)
    (hs : ∀ s body caller, q s → s.fill? name = some (body, caller) → t body (s.within caller)) :
    r.Along q (RenderContext.slot enter name x) (RenderContext.slot enter' name x') := fun s s' hq hst => by
  rw [RenderContext.slot, RenderContext.slot, Run.run_bind_done (Run.run_get s), Run.run_bind_done (Run.run_get s')]
  have hfill := hst.fill? name
  cases hf : s.fill? name with
  | none =>
    rw [hf] at hfill
    generalize s'.fill? name = fill' at hfill ⊢
    cases hfill
    exact hx s s' (hn s hq hf) hst
  | some fill =>
    obtain ⟨body, caller⟩ := fill
    rw [hf] at hfill
    generalize s'.fill? name = fill' at hfill ⊢
    cases hfill with
    | @some _ fill' hfill =>
      obtain ⟨body', caller'⟩ := fill'
      obtain ⟨hbody, hcaller⟩ := hfill
      have hcaller : caller' = caller := hcaller
      have hends := henter body body' hbody _ _ (hs s body caller hq hf) (hst.within caller)
      subst hcaller
      rw [Run.run_bind_done (Run.run_modify _ s), Run.run_bind_done (Run.run_modify _ s')]
      generalize ho : (enter body).run (s.within caller') = o at hends
      generalize ho' : (enter' body').run (s'.within caller') = o' at hends
      cases hends with
      | done hu =>
        rw [Run.run_bind_done ho, Run.run_bind_done ho', Run.run_modify, Run.run_modify, hst.current]
        exact .done (hu.within _)
      | failed fault hu =>
        rw [Run.run_bind_failed ho, Run.run_bind_failed ho']
        exact .failed fault hu
      | exhausted =>
        rw [Run.run_bind_exhausted ho, Run.run_bind_exhausted ho']
        exact .exhausted

theorem along_call {enter enter' : Block → Run RenderState Unit} {t : Block → RenderState → Prop}
    (hm : List.Forall₂ (Macro.Matches r.RecastsAll) context.macros macros) (callee : MacroTarget)
    {fills fills' : List (String × Block)} (hf : r.RecastsFills fills fills')
    (arguments : List (String × Argument)) (location : Location)
    (henter : ∀ b b', r.RecastsAll b b' → r.Along (t b) (enter b) (enter' b'))
    (ht : ∀ s m bindings, q s → context.prepareCall s.scope callee arguments location = .ok (m, bindings) →
      t m.body ((s.enter fills).withScope (RenderContext.defineAll bindings s.scope.push))) :
    r.Along q (context.call enter callee fills arguments location)
      (RenderContext.call { context with macros } enter' callee fills' arguments location) := fun s s' hq hs => by
  have hprepared := RenderContext.prepareCall_matching hm s.scope callee arguments location
  unfold RenderContext.call
  generalize hc : context.prepareCall s.scope callee arguments location = c at hprepared
  generalize hc' : RenderContext.prepareCall { context with macros } s.scope callee arguments location = c'
    at hprepared
  rw [← hs.scope] at hc'
  cases hprepared with
  | error fault =>
    have hr : (Run.readScope (context.prepareCall · callee arguments location)).run s = .failed fault s :=
      Run.run_read_error hc
    have hr' : (Run.readScope (RenderContext.prepareCall { context with macros } · callee arguments location)).run
      s' = .failed fault s' := Run.run_read_error hc'
    rw [Run.run_bind_failed hr, Run.run_bind_failed hr']
    exact .failed fault hs
  | @ok m m' bindings hmatch =>
    have hr : (Run.readScope (context.prepareCall · callee arguments location)).run s = .done (m, bindings) s :=
      Run.run_read_ok hc
    have hr' : (Run.readScope (RenderContext.prepareCall { context with macros } · callee arguments location)).run
      s' = .done (m', bindings) s' := Run.run_read_ok hc'
    rw [Run.run_bind_done hr, Run.run_bind_done hr']
    dsimp only
    rw [Run.run_bind_done (Run.run_get s), Run.run_bind_done (Run.run_get s'),
      Run.run_bind_done (Run.run_modify _ s), Run.run_bind_done (Run.run_modify _ s')]
    have hbody := ((Along.change (RenderContext.defineAll bindings)).append (henter _ _ hmatch.body)
      (q := fun u => ∀ v, (Run.modifyScope (RenderContext.defineAll bindings)).run u = .done () v → t m.body v)
      (p := fun _ => True) (fun _ _ => trivial) fun _ v hu hv => hu v hv).inFrame
      (q := fun u => u = s.enter fills) fun u hu v hv => by
        subst hu
        cases hv
        exact ht s m bindings hq hc
    have hends := hbody _ _ rfl (hs.enter hf)
    generalize ho : (Run.inFrame _).run (s.enter fills) = o at hends
    generalize ho' : (Run.inFrame _).run (s'.enter fills') = o' at hends
    cases hends with
    | done hu =>
      rw [Run.run_bind_done ho, Run.run_bind_done ho', Run.run_modify, Run.run_modify, hs.current]
      exact .done (hu.leave _)
    | failed fault hu =>
      rw [Run.run_bind_failed ho, Run.run_bind_failed ho']
      exact .failed fault hu
    | exhausted =>
      rw [Run.run_bind_exhausted ho, Run.run_bind_exhausted ho']
      exact .exhausted

end

section

variable {macros : List Macro} {n : Nat} {e e' : LocatedExpression} {block : Block} {s : RenderState}

/-- An expression that is replaced by `default` gives this where it is evaluated. -/
theorem value_recast {here : Prop} {op : Operation} (h : r.IsDefault context n [op] s)
    (he : e' = e ∨ here ∧ e' = e.asDefault) (hreads : here → r.Reads context s.scope op e) :
    RenderContext.value { context with macros } s.scope e' = context.value s.scope e := by
  obtain rfl | ⟨hr, rfl⟩ := he
  · rfl
  · exact (h .here (hreads hr)).symm

mutual

theorem operation_along (hm : List.Forall₂ (Macro.Matches r.RecastsAll) context.macros macros)
    (henter : ∀ b b', r.RecastsAll b b' → r.Along (fun s => ∀ k, n = k + 1 → r.IsDefault context k b s)
      (context.enterWithin n b) (RenderContext.enterWithin { context with macros } n b')) :
    ∀ {op op' : Operation}, r.Recasts op op' → r.Along (r.IsDefault context n [op])
      (context.operation (context.enterWithin n) op)
      (RenderContext.operation { context with macros } (RenderContext.enterWithin { context with macros } n) op')
  | _, _, .literal text => .write text
  | _, _, .pushScope => .change _
  | _, _, .popScope => .change _
  | _, _, .define kind name e => .read (fun _ _ => True) (fun _ _ => rfl) (fun _ => .change _)
      fun _ _ _ _ => trivial
  | .emit e asMarkup fallback, _, .emit he hb => by
    have hx := operations_along hm henter hb
    refine .read (fun v s => r.IsDefault context n [.emit e asMarkup fallback] s ∧
      context.value s.scope e = .ok v) (fun s hs => ?_) (fun v => ?_) fun s v hs h => ⟨hs, h⟩
    · exact value_recast hs he fun hr => hr.elim (fun hr => hr ▸ .content) fun hr => hr ▸ .replace
    · split
      · next hv => exact hx.mono fun s ⟨hs, h⟩ => hs.inside (.default h hv)
      · exact .write _
  | .condition test body, _, .condition he hb => by
    have hx := operations_along hm henter hb
    refine .read (fun v s => r.IsDefault context n [.condition test body] s ∧
      context.value s.scope test = .ok v) (fun s hs => ?_) (fun v => ?_) fun s v hs h => ⟨hs, h⟩
    · exact value_recast hs he fun hr => hr ▸ .condition
    · split
      · next hv => exact hx.mono fun s ⟨hs, h⟩ => hs.inside (.holds h hv)
      · exact .nothing
  | .repeat name items body, _, .repeat he hb => by
    refine along_loop name (operations_along hm henter hb) (fun s hs => ?_)
      (fun s hs h => hs.inside (.once h)) fun s values u hs h hi => hs.inside (.item h ?_)
    · obtain rfl | ⟨hr, rfl⟩ := he
      · rfl
      · have hv : context.value s.scope items = .ok .default := hs .here (hr ▸ .loop)
        rw [RenderContext.loopItems, RenderContext.loopItems, hv]
        rfl
    · rwa [context.runBlock_eq]
  | .element tag body, _, .element hc hb =>
    along_element (operations_along hm henter hb)
      (fun s hs ho => startTag_recast hc ho fun hreads => hs .here hreads)
      (fun s hs h => hs.inside (.untagged h)) fun s start hs h ht => hs.inside (.tagged h ht)
  | .onError body handler asMarkup, _, .onError hb =>
    (along_guard handler asMarkup (operations_along hm henter hb)).mono fun s hs => hs.inside .guarded
  | .callMacro callee fills arguments location, _, .callMacro hf =>
    along_call hm callee hf arguments location henter fun s m bindings hs h k hk => by
      subst hk
      exact hs.inside (.called h)
  | .slot name fallback, _, .slot hb =>
    along_slot name (operations_along hm henter hb) henter (fun s hs h => hs.inside (.unfilled h))
      fun s body caller hs h k hk => by
        subst hk
        exact hs.inside (.filled h)

theorem operations_along (hm : List.Forall₂ (Macro.Matches r.RecastsAll) context.macros macros)
    (henter : ∀ b b', r.RecastsAll b b' → r.Along (fun s => ∀ k, n = k + 1 → r.IsDefault context k b s)
      (context.enterWithin n b) (RenderContext.enterWithin { context with macros } n b')) :
    ∀ {ops ops' : List Operation}, r.RecastsAll ops ops' → r.Along (r.IsDefault context n ops)
      (context.operations (context.enterWithin n) ops)
      (RenderContext.operations { context with macros } (RenderContext.enterWithin { context with macros } n) ops')
  | _, _, .nil => .nothing
  | _, _, .cons h hs => (operation_along hm henter h).append (operations_along hm henter hs)
      (fun _ hs => hs.head) fun _ _ hs hu => hs.tail hu

end

theorem enterWithin_along (hm : List.Forall₂ (Macro.Matches r.RecastsAll) context.macros macros) :
    ∀ (n : Nat) (b b' : Block), r.RecastsAll b b' →
      r.Along (fun s => ∀ k, n = k + 1 → r.IsDefault context k b s) (context.enterWithin n b)
        (RenderContext.enterWithin { context with macros } n b')
  | 0, _, _, _ => fun _ _ _ _ => .exhausted
  | n + 1, b, b', hb => by
    have hx := operations_along hm (enterWithin_along hm n) hb
    rw [← RenderContext.runBlock_eq, ← RenderContext.runBlock_eq] at hx
    exact hx.mono fun s hs => hs n rfl

theorem block_along (hm : List.Forall₂ (Macro.Matches r.RecastsAll) context.macros macros) (n : Nat)
    {b b' : Block} (hb : r.RecastsAll b b') :
    r.Along (r.IsDefault context n b) (context.runBlock n b)
      (RenderContext.runBlock { context with macros } n b') :=
  (enterWithin_along hm (n + 1) b b' hb).mono fun s hs k hk => by
    cases hk
    exact hs

end

end Removal

end MarkupTemplate
