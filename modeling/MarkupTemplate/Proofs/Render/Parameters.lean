import MarkupTemplate.Proofs.Compile.WellFormed
import MarkupTemplate.Proofs.Render.Bindings
import MarkupTemplate.Value.Coerce

/-!
# Parameters of a call

Every type but the one of all values has a kind, and what a type makes of a value that it accepts is nothing or of
this kind (`TypeTag.coerce_admitted`). A call gives each parameter the value of its argument, or of its default, where
the call stands, as one of the type that the parameter declares (`RenderContext.Binds`). If there is an argument that
the macro does not know, or if one of these values cannot be had, the call is refused (`RenderContext.Refuses`) and
nothing has happened. Else the body starts in a frame of its own that binds the parameters and nothing else
(`RenderContext.parameters_bound`).
-/

/-! ## Declared types -/

namespace MarkupTemplate

namespace TypeTag

/-- The kind of the values of a type; values of every kind are of the type `any`. -/
def kind? : TypeTag → Option ValueKind
  | int => some .int
  | float => some .float
  | str => some .string
  | bool => some .bool
  | list => some .list
  | map => some .map
  | any => none

/-- A value is nothing or of a type. -/
def Admits (tag : TypeTag) (v : Value) : Prop :=
  v.kind = .nothing ∨ ∀ kind, tag.kind? = some kind → v.kind = kind

/-- What a type makes of a value it accepts is nothing or of the type. -/
theorem coerce_admitted {tag : TypeTag} {v w : Value} (h : tag.coerce v = .ok w) : tag.Admits w := by
  unfold coerce at h
  dsimp only at h
  split at h
  case h_1 => cases h; exact .inl rfl
  case h_2 => exact .inr fun kind hk => by cases hk
  all_goals
    try split at h
    all_goals
      cases h
      try exact .inr fun kind hk => by cases hk; rfl

end TypeTag

end MarkupTemplate

/-! ## Arguments and parameters -/

namespace MarkupTemplate

variable {arguments : List (String × Argument)} {p : Parameter}

/-- The expression, if any, that gives a parameter its value: that of the first argument with its name, or the
default if this argument asks for it or if there is no such argument. -/
inductive Parameter.Source (p : Parameter) (arguments : List (String × Argument)) : Option LocatedExpression → Prop
  | passed {before after : List (String × Argument)} {e : LocatedExpression}
      (h : arguments = before ++ (p.name, .value e) :: after) (hb : ∀ argument ∈ before, argument.1 ≠ p.name) :
      p.Source arguments (some e)
  | asked {before after : List (String × Argument)} (h : arguments = before ++ (p.name, .default) :: after)
      (hb : ∀ argument ∈ before, argument.1 ≠ p.name) : p.Source arguments p.default?
  | absent (h : ∀ argument ∈ arguments, argument.1 ≠ p.name) : p.Source arguments p.default?

namespace RenderContext

/-- The parameter's expression that the model of a call looks up. -/
def source? (arguments : List (String × Argument)) (p : Parameter) : Option LocatedExpression :=
  (passed? arguments p.name).or p.default?

theorem lookup_of_first {before after : List (String × Argument)} {name : String} {a : Argument}
    (hb : ∀ argument ∈ before, argument.1 ≠ name) : (before ++ (name, a) :: after).lookup name = some a :=
  List.lookup_eq_some_iff.2 ⟨before, after, rfl, fun argument ha => by simpa using (hb argument ha).symm⟩

theorem source_source? : p.Source arguments (source? arguments p) := by
  unfold source? passed?
  cases hl : arguments.lookup p.name with
  | none =>
    refine .absent fun argument ha hname => ?_
    simpa [hname] using List.lookup_eq_none_iff.1 hl argument ha
  | some a =>
    obtain ⟨before, after, rfl, hb⟩ := List.lookup_eq_some_iff.1 hl
    have hb : ∀ argument ∈ before, argument.1 ≠ p.name :=
      fun argument ha hname => by simpa [hname] using hb argument ha
    cases a with
    | value e => exact .passed rfl hb
    | default => exact .asked rfl hb

theorem eq_source? {source : Option LocatedExpression} (h : p.Source arguments source) :
    source = source? arguments p := by
  unfold source? passed?
  cases h with
  | passed h hb => rw [h, lookup_of_first hb]; rfl
  | asked h hb => rw [h, lookup_of_first hb]; rfl
  | absent h =>
    have hl : arguments.lookup p.name = none :=
      List.lookup_eq_none_iff.2 fun argument ha => by simpa using (h argument ha).symm
    rw [hl]
    rfl

variable (context : RenderContext) (σ : Scope)

/-- The value of an expression in a scope; nothing without an expression. -/
def given : Option LocatedExpression → Except RenderFault Value
  | some e => context.value σ e
  | none => .ok .nothing

/-- A call with these arguments in a scope gives a parameter a value. -/
inductive Binds (arguments : List (String × Argument)) (p : Parameter) : Value → Prop
  | intro {source : Option LocatedExpression} {v w : Value} (hs : p.Source arguments source)
      (hv : context.given σ source = .ok v) (hw : p.type.coerce v = .ok w) : Binds arguments p w

/-- A call in a scope is for a macro. -/
def Calls (callee : MacroTarget) (m : Macro) : Prop :=
  ∃ id, context.target σ callee = .ok id ∧ context.macros[id]? = some m

/-- What is wrong with a call: there is no macro to be called, it has no parameter for an argument, an expression of a
parameter fails, or the parameter's type does not accept its value. -/
inductive Refuses (callee : MacroTarget) (arguments : List (String × Argument)) : Prop
  | target {fault : RenderFault} (h : context.target σ callee = .error fault)
  | missing {id : Nat} (h : context.target σ callee = .ok id) (hm : context.macros[id]? = none)
  | undeclared {m : Macro} {argument : String × Argument} (h : context.Calls σ callee m)
      (ha : argument ∈ arguments) (hp : ∀ p ∈ m.parameters, p.name ≠ argument.1)
  | evaluation {m : Macro} {p : Parameter} {source : Option LocatedExpression} {fault : RenderFault}
      (h : context.Calls σ callee m) (hp : p ∈ m.parameters) (hs : p.Source arguments source)
      (hv : context.given σ source = .error fault)
  | coercion {m : Macro} {p : Parameter} {source : Option LocatedExpression} {v : Value} {fault : EvalFault}
      (h : context.Calls σ callee m) (hp : p ∈ m.parameters) (hs : p.Source arguments source)
      (hv : context.given σ source = .ok v) (hw : p.type.coerce v = .error fault)

/-- A frame that binds the parameters of a macro, each to the value that a call gives it. -/
structure BindsParameters (arguments : List (String × Argument)) (m : Macro) (frame : Frame) : Prop where
  names : frame.names.Perm (m.parameters.map Parameter.name)
  values : ∀ p ∈ m.parameters, ∃ v,
    frame.get? p.name = some v ∧ context.Binds σ arguments p v ∧ p.type.Admits v

variable {context σ} {callee : MacroTarget} {location : Location} {m : Macro} {bindings : List (String × Value)}

theorem bindParameter_eq (context : RenderContext) (σ : Scope) (arguments : List (String × Argument))
    (location : Location) (p : Parameter) : context.bindParameter σ arguments location p = do
      let v ← context.given σ (source? arguments p)
      return (p.name, ← coerceFor p (source? arguments p) location v) := by
  unfold bindParameter
  rw [← source?]
  cases source? arguments p <;> rfl

theorem coerceFor_gives (p : Parameter) (source : Option LocatedExpression) (location : Location) (v : Value) :
    Gives (fun w => p.type.coerce v = .ok w) (fun _ => ∃ fault, p.type.coerce v = .error fault)
      (coerceFor p source location v) := by
  unfold coerceFor
  split
  · next h => exact .ok h
  · next h => exact .error ⟨_, h⟩

/-- A parameter of the macro that is called has its value, or the call is refused. -/
theorem bindParameter_gives (h : context.Calls σ callee m) (hp : p ∈ m.parameters) :
    Gives (fun binding => binding.1 = p.name ∧ context.Binds σ arguments p binding.2)
      (fun _ => context.Refuses σ callee arguments) (context.bindParameter σ arguments location p) := by
  rw [bindParameter_eq]
  have hgiven := (Gives.refl (context.given σ (source? arguments p))).weaken
    fun _ hv => Refuses.evaluation h hp source_source? hv
  refine hgiven.bind fun v _ hv => ?_
  have hcoerce := (coerceFor_gives p (source? arguments p) location v).weaken
    fun _ ⟨_, hw⟩ => Refuses.coercion h hp source_source? hv hw
  exact hcoerce.bind fun w _ hw => .ok ⟨rfl, .intro source_source? hv hw⟩

/-- What is known of a call that has been prepared. -/
structure Prepares (context : RenderContext) (σ : Scope) (callee : MacroTarget)
    (arguments : List (String × Argument)) (m : Macro) (bindings : List (String × Value)) : Prop where
  calls : context.Calls σ callee m
  declared : ∀ argument ∈ arguments, ∃ p ∈ m.parameters, p.name = argument.1
  values : ∀ p ∈ m.parameters, ∃ v, (p.name, v) ∈ bindings ∧ context.Binds σ arguments p v

theorem prepareCall_gives (context : RenderContext) (σ : Scope) (callee : MacroTarget)
    (arguments : List (String × Argument)) (location : Location) :
    Gives (fun prepared => context.Prepares σ callee arguments prepared.1 prepared.2)
      (fun _ => context.Refuses σ callee arguments) (context.prepareCall σ callee arguments location) := by
  unfold prepareCall
  have htarget : Gives _ (fun _ => context.Refuses σ callee arguments) (context.target σ callee) :=
    (Gives.refl _).weaken fun _ ht => .target ht
  refine htarget.bind fun id _ ht => ?_
  cases hm : context.macros[id]? with
  | none => exact .error (.missing ht hm)
  | some m =>
    have hcalls : context.Calls σ callee m := ⟨id, ht, hm⟩
    dsimp only
    cases hu : unknownArgument? m arguments with
    | some name =>
      obtain ⟨argument, ha, rfl⟩ := List.mem_map.1 (List.mem_of_find?_eq_some hu)
      refine .error (.undeclared hcalls ha ?_)
      simpa using List.find?_some hu
    | none =>
      have hbind : ∀ p ∈ m.parameters, Gives (fun _ => True) (fun _ => context.Refuses σ callee arguments)
          (context.bindParameter σ arguments location p) := fun p hp =>
        (bindParameter_gives hcalls hp).imp fun _ _ _ => trivial
      refine (Gives.mapM hbind).bind fun bindings hb _ => .ok ⟨hcalls, ?_, ?_⟩
      · intro argument ha
        have hknown := List.find?_eq_none.1 hu argument.1 (List.mem_map_of_mem ha)
        simpa using hknown
      · intro p hp
        obtain ⟨⟨name, v⟩, hv, hpv⟩ := mapM_reaches hb hp
        obtain ⟨rfl, hbinds⟩ := (bindParameter_gives hcalls hp).of_ok hpv
        exact ⟨v, hv, hbinds⟩

theorem Calls.unique {m' : Macro} (h : context.Calls σ callee m) (h' : context.Calls σ callee m') : m = m' := by
  obtain ⟨id, ht, hm⟩ := h
  obtain ⟨id', ht', hm'⟩ := h'
  cases ht.symm.trans ht'
  exact Option.some.inj (hm.symm.trans hm')

/-- A call that is refused is not prepared. -/
theorem Prepares.not_refuses (h : context.Prepares σ callee arguments m bindings) :
    ¬context.Refuses σ callee arguments := by
  obtain ⟨id, htarget, hmacro⟩ := h.calls
  intro hrefuses
  cases hrefuses with
  | target ht => cases htarget.symm.trans ht
  | missing ht hm =>
    cases htarget.symm.trans ht
    cases hmacro.symm.trans hm
  | @undeclared _ argument hcalls ha hp =>
    obtain ⟨p, hdeclared, hname⟩ := h.declared argument ha
    cases h.calls.unique hcalls
    exact hp p hdeclared hname
  | evaluation hcalls hp hs hv =>
    cases h.calls.unique hcalls
    obtain ⟨_, -, hs', hv', -⟩ := h.values _ hp
    rw [eq_source? hs, ← eq_source? hs'] at hv
    cases hv.symm.trans hv'
  | coercion hcalls hp hs hv hw =>
    cases h.calls.unique hcalls
    obtain ⟨_, -, hs', hv', hw'⟩ := h.values _ hp
    rw [eq_source? hs, ← eq_source? hs', hv'] at hv
    cases hv
    cases hw.symm.trans hw'

theorem defineAll_cons (bindings : List (String × Value)) (frame : Frame) (outer : List Frame) (root : Frame) :
    defineAll bindings ⟨frame :: outer, root⟩ =
      ⟨bindings.foldl (fun frame binding => frame.insert binding.1 binding.2) frame :: outer, root⟩ := by
  induction bindings generalizing frame with
  | nil => rfl
  | cons binding bindings ih => exact ih _

/-- The values of distinct parameters make up a frame that binds them. -/
theorem Prepares.bindsParameters (h : context.Prepares σ callee arguments m bindings)
    (hn : bindings.map Prod.fst = m.parameters.map Parameter.name) (hd : Parameter.AreDistinct m.parameters) :
    context.BindsParameters σ arguments m (Fields.ofList bindings) := by
  have hnodup : (bindings.map Prod.fst).Nodup := by rwa [hn]
  refine ⟨hn ▸ Fields.perm_names_ofList hnodup, fun p hp => ?_⟩
  obtain ⟨v, hv, hbinds⟩ := h.values p hp
  refine ⟨v, Fields.get?_ofList_of_mem hnodup hv, hbinds, ?_⟩
  obtain ⟨_, _, hw⟩ := hbinds
  exact TypeTag.coerce_admitted hw

/-- What a call that has been prepared comes to: the body in a frame of its own. -/
theorem call_of_prepareCall {s : RenderState} (enter : Block → Run RenderState Unit)
    (fills : List (String × Block)) (h : context.prepareCall s.scope callee arguments location = .ok (m, bindings)) :
    (context.call enter callee fills arguments location).run s =
      (do
        enter m.body
        Run.modifyScope Scope.pop
        Run.modify (·.leave s.current)).run
      ((s.enter fills).withScope ⟨Fields.ofList bindings :: s.scope.inner, s.scope.root⟩) := by
  have hread : (Run.readScope (context.prepareCall · callee arguments location)).run s = .done (m, bindings) s :=
    Run.run_read_ok h
  have hscope : defineAll bindings s.scope.push = ⟨Fields.ofList bindings :: s.scope.inner, s.scope.root⟩ :=
    defineAll_cons bindings [] s.scope.inner s.scope.root
  rw [call, Run.run_bind_done hread, ← hscope]
  simp only [Run.inFrame, bind_assoc]
  rfl

variable {provider : ResourceProvider} {mode : TemplateMode} {source : TemplateSource} {program : Program}

/-- A call in a compiled program is refused with everything as it was, or the body of its macro starts, in a frame
with its parameters and nothing else above the caller's frames. -/
theorem parameters_bound (hc : Program.compile provider mode source = .ok program)
    (hm : context.macros = program.macros) (callee : MacroTarget) (fills : List (String × Block))
    (arguments : List (String × Argument)) (location : Location) (s : RenderState) :
    (context.Refuses s.scope callee arguments → ∃ fault, ∀ enter,
      (context.operation enter (.callMacro callee fills arguments location)).run s = .failed fault s) ∧
    (¬context.Refuses s.scope callee arguments → ∃ m ∈ program.macros, context.Calls s.scope callee m ∧
      ∃ frame, context.BindsParameters s.scope arguments m frame ∧ ∀ enter,
        (context.operation enter (.callMacro callee fills arguments location)).run s =
          (do
            enter m.body
            Run.modifyScope Scope.pop
            Run.modify (·.leave s.current)).run
          ((s.enter fills).withScope ⟨frame :: s.scope.inner, s.scope.root⟩)) := by
  have hgives := context.prepareCall_gives s.scope callee arguments location
  cases hp : context.prepareCall s.scope callee arguments location with
  | error fault =>
    have hrefuses := hgives.of_error hp
    refine ⟨fun _ => ⟨fault, fun enter => ?_⟩, fun hnot => absurd hrefuses hnot⟩
    have hread : (Run.readScope (context.prepareCall · callee arguments location)).run s = .failed fault s :=
      Run.run_read_error hp
    exact Run.run_bind_failed hread
  | ok prepared =>
    obtain ⟨m, bindings⟩ := prepared
    have hprepares := hgives.of_ok hp
    refine ⟨fun hrefuses => absurd hrefuses hprepares.not_refuses, fun _ => ?_⟩
    have hmem : m ∈ program.macros := hm ▸ context.mem_of_prepareCall hp
    have hbinds := hprepares.bindsParameters (names_of_prepareCall hp) (Program.distinct_of_compile hc m hmem)
    exact ⟨m, hmem, hprepares.calls, _, hbinds, fun enter => call_of_prepareCall enter fills hp⟩

/-- A macro with three parameters, one of them with a default. -/
def typedParameters : TemplateSource :=
  ⟨"<b metal:define-macro=\"m\" metal:define-param=\"int y; str z 7; map w\"/>", none⟩

/-- A number is passed as a text, and once more, and the default is asked for. -/
def passedTwice : List (String × Argument) :=
  let number : LocatedExpression := ⟨"n", .path ⟨"n", []⟩, default⟩
  [("z", .default), ("y", .value number), ("y", .value ⟨"m", .path ⟨"m", []⟩, default⟩)]

theorem parameters_bound_typedParameters : ∃ (program : Program) (m : Macro) (frame : Frame),
    Program.compile (MemoryStore.ofTexts []).provider .markup typedParameters = .ok program ∧
    (let context : RenderContext := ⟨program.macros, noHost, Value.text⟩
    let s : RenderState := .initial (.ofGlobals [("n", .str " 41 ")])
    m.parameters.map Parameter.name = ["y", "z", "w"] ∧ context.BindsParameters s.scope passedTwice m frame ∧
    (∀ enter, (context.operation enter (.callMacro (.known 0) [] passedTwice default)).run s =
      (do
        enter m.body
        Run.modifyScope Scope.pop
        Run.modify (·.leave none)).run ((s.enter []).withScope ⟨[frame], s.scope.root⟩)) ∧
    ∃ fault, ∀ enter, (context.operation enter (.callMacro (.known 0) [] [("x", .default)] default)).run s =
      .failed fault s) := by
  have hd : (Program.compile (MemoryStore.ofTexts []).provider .markup typedParameters).toOption.any fun program =>
      let context : RenderContext := ⟨program.macros, noHost, Value.text⟩
      let σ : Scope := .ofGlobals [("n", .str " 41 ")]
      program.macros[0]?.any (fun m => m.parameters.map Parameter.name = ["y", "z", "w"]) ∧
        (context.prepareCall σ (.known 0) passedTwice default).toOption.isSome := by
    decide +kernel
  obtain ⟨program, hp, hd⟩ := (Option.any_eq_true ..).1 hd
  have hc := eq_ok_of_toOption hp
  let context : RenderContext := ⟨program.macros, noHost, Value.text⟩
  let s : RenderState := .initial (.ofGlobals [("n", .str " 41 ")])
  obtain ⟨hm, hprepared⟩ := of_decide_eq_true hd
  obtain ⟨m, hm, hnames⟩ := (Option.any_eq_true ..).1 hm
  have hnames : m.parameters.map Parameter.name = ["y", "z", "w"] := of_decide_eq_true hnames
  have hcalls : context.Calls s.scope (.known 0) m := ⟨0, rfl, hm⟩
  obtain ⟨prepared, hprepared⟩ := Option.isSome_iff_exists.1 hprepared
  have hfree : ¬context.Refuses s.scope (.known 0) passedTwice :=
    ((context.prepareCall_gives ..).of_ok (eq_ok_of_toOption hprepared)).not_refuses
  have hrefuses : context.Refuses s.scope (.known 0) [("x", .default)] := by
    refine .undeclared hcalls (List.mem_singleton_self _) fun p hp hname => ?_
    have hx : p.name ∈ ["y", "z", "w"] := hnames ▸ List.mem_map_of_mem hp
    rw [hname] at hx
    exact absurd hx (by decide)
  have hmacros : context.macros = program.macros := rfl
  obtain ⟨m', -, hcalls', frame, hframe, hruns⟩ :=
    (parameters_bound hc hmacros (.known 0) [] passedTwice default s).2 hfree
  cases hcalls.unique hcalls'
  have hfails := (parameters_bound hc hmacros (.known 0) [] [("x", .default)] default s).1 hrefuses
  exact ⟨program, m, frame, hc, hnames, hframe, hruns, hfails⟩

end RenderContext

end MarkupTemplate
