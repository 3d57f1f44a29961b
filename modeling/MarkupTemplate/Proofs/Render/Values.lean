import MarkupTemplate.Proofs.Compile.WellFormed
import MarkupTemplate.Proofs.Evaluation.Prepared

/-!
# The values of a running program

What is told from the variables while a well-formed program runs: values, tags, items, handlers and the
arguments of calls. If the handles in the variables have a property `K`, so have those in all that is bound,
and the only faults are those of expressions whose host code can be evaluated (`RenderFault.IsOfValue`) and,
in a call whose macro is computed, a value that is no macro or has no such parameter.
-/

namespace MarkupTemplate

open Value (HandlesIn)
open EvalFault (NotHost)

/-! ### What a program contains -/

mutual

theorem Operation.mem_expressions_of_mem_blocks {b : Block} {e : LocatedExpression}
    (he : e ∈ Operation.expressionsAll b) : ∀ {op : Operation}, b ∈ op.blocks → e ∈ op.expressions
  | .emit _ _ fallback, hb => List.mem_cons_of_mem _ (Operation.mem_expressionsAll_of_mem he hb)
  | .condition _ body, hb => List.mem_cons_of_mem _ (Operation.mem_expressionsAll_of_mem he hb)
  | .repeat _ _ body, hb => List.mem_cons_of_mem _ (Operation.mem_expressionsAll_of_mem he hb)
  | .element _ body, hb => List.mem_append_right _ (Operation.mem_expressionsAll_of_mem he hb)
  | .onError body _ _, hb => List.mem_append_left _ (Operation.mem_expressionsAll_of_mem he hb)
  | .callMacro _ fills _ _, hb =>
    List.mem_append_left _ (List.mem_append_right _ (Operation.mem_expressionsFills_of_mem he hb))
  | .slot _ fallback, hb => Operation.mem_expressionsAll_of_mem he hb
  | .literal _, hb => by cases hb
  | .pushScope, hb => by cases hb
  | .popScope, hb => by cases hb
  | .define .., hb => by cases hb

/-- The expressions of a block are among those of the blocks around it. -/
theorem Operation.mem_expressionsAll_of_mem {b : Block} {e : LocatedExpression}
    (he : e ∈ Operation.expressionsAll b) : ∀ {body : List Operation}, b ∈ body :: Block.inner body →
      e ∈ Operation.expressionsAll body
  | body, hb => by
    rcases List.mem_cons.1 hb with rfl | hb
    · exact he
    · exact Operation.mem_expressionsAll_of_mem_inner he hb

theorem Operation.mem_expressionsAll_of_mem_inner {b : Block} {e : LocatedExpression}
    (he : e ∈ Operation.expressionsAll b) : ∀ {ops : List Operation}, b ∈ Block.inner ops →
      e ∈ Operation.expressionsAll ops
  | op :: ops, hb => by
    rcases List.mem_append.1 hb with hb | hb
    · exact List.mem_append_left _ (Operation.mem_expressions_of_mem_blocks he hb)
    · exact List.mem_append_right _ (Operation.mem_expressionsAll_of_mem_inner he hb)

theorem Operation.mem_expressionsFills_of_mem {b : Block} {e : LocatedExpression}
    (he : e ∈ Operation.expressionsAll b) : ∀ {fills : List (String × List Operation)},
      b ∈ Block.ofFills fills → e ∈ Operation.expressionsFills fills
  | (_, body) :: fills, hb => by
    rcases List.mem_append.1 hb with hb | hb
    · exact List.mem_append_left _ (Operation.mem_expressionsAll_of_mem he hb)
    · exact List.mem_append_right _ (Operation.mem_expressionsFills_of_mem he hb)

end

theorem Operation.mem_expressionsAll {op : Operation} {e : LocatedExpression} (he : e ∈ op.expressions) :
    ∀ {ops : List Operation}, op ∈ ops → e ∈ Operation.expressionsAll ops
  | other :: ops, h => by
    rcases List.mem_cons.1 h with rfl | h
    · exact List.mem_append_left _ he
    · exact List.mem_append_right _ (Operation.mem_expressionsAll he h)

theorem Block.mem_inner {op : Operation} {b : Block} (hb : b ∈ op.blocks) :
    ∀ {ops : List Operation}, op ∈ ops → b ∈ Block.inner ops
  | other :: ops, h => by
    rcases List.mem_cons.1 h with rfl | h
    · exact List.mem_append_left _ hb
    · exact List.mem_append_right _ (Block.mem_inner hb h)

theorem Block.mem_ofFills {fills : List (String × Block)} {fill : String × Block} (h : fill ∈ fills) :
    fill.2 ∈ Block.ofFills fills := by
  induction fills with
  | nil => cases h
  | cons other fills ih =>
    rcases List.mem_cons.1 h with rfl | h
    · exact List.mem_append_left _ List.mem_cons_self
    · exact List.mem_append_right _ (ih h)

namespace Program

variable {program : Program} {op : Operation} {b : Block}

theorem Contains.mem_blocks (h : program.Contains op) (hb : b ∈ op.blocks) : b ∈ program.blocks := by
  obtain ⟨around, ha, hop⟩ := h
  exact Program.mem_blocks ha (List.mem_cons_of_mem _ (Block.mem_inner hb hop))

theorem Contains.mem_expressions (h : program.Contains op) {e : LocatedExpression}
    (he : e ∈ op.expressions) : e ∈ program.expressions := by
  obtain ⟨around, ha, hop⟩ := h
  obtain ⟨body, hbody, ha⟩ := List.mem_flatMap.1 ha
  have he := Operation.mem_expressionsAll_of_mem (Operation.mem_expressionsAll he hop) ha
  rcases List.mem_cons.1 hbody with rfl | hbody
  · exact List.mem_append_left _ he
  · obtain ⟨m, hm, rfl⟩ := List.mem_map.1 hbody
    exact List.mem_append_right _ (List.mem_flatMap.2 ⟨m, hm, List.mem_append_right _ he⟩)

theorem mem_blocks_of_mem_macros {m : Macro} (hm : m ∈ program.macros) : m.body ∈ program.blocks :=
  List.mem_flatMap.2 ⟨m.body, List.mem_cons_of_mem _ (List.mem_map_of_mem hm), List.mem_cons_self⟩

end Program

/-! ### Faults -/

/-- The program is at fault, not its template or data: host code that cannot be evaluated, or a handle that
leads nowhere. -/
def RenderFault.IsInternal (fault : RenderFault) : Prop :=
  match fault.problem with
  | .evaluation (.host _) _ => True
  | .noSuchMacro _ => True
  | _ => False

/-- An expression has no value, and its host code is not the cause. -/
def RenderFault.IsOfValue (fault : RenderFault) : Prop :=
  ∃ cause source, fault.problem = .evaluation cause source ∧ cause.NotHost

theorem RenderFault.IsOfValue.not_isInternal {fault : RenderFault} (h : fault.IsOfValue) :
    ¬fault.IsInternal := by
  obtain ⟨cause, source, hp, hcause⟩ := h
  intro hi
  unfold RenderFault.IsInternal at hi
  rw [hp] at hi
  cases cause with
  | host problem => exact hcause problem rfl
  | _ => exact hi

/-! ### Records -/

section

variable {K : MacroHandle → Prop}

theorem handlesIn_ofList {entries : List (String × Value)} (h : ∀ entry ∈ entries, entry.2.HandlesIn K) :
    (Value.map (Fields.ofList entries)).HandlesIn K :=
  Value.handlesIn_map.2 (Frame.HandlesIn.nil.insertAll h)

theorem RenderContext.handlesIn_repetition (index length : Nat) :
    (RenderContext.repetition index length).HandlesIn K := by
  refine handlesIn_ofList ?_
  simp

theorem RenderContext.handlesIn_failureRecord (fault : RenderFault) :
    (RenderContext.failureRecord fault).HandlesIn K := by
  refine handlesIn_ofList ?_
  cases fault.location <;> simp

theorem Scope.HandlesIn.outerLoops {σ : Scope} (h : σ.HandlesIn K) :
    Frame.HandlesIn K (RenderContext.outerLoops σ) := by
  unfold RenderContext.outerLoops
  split
  · next hv => exact Value.handlesIn_map.1 (h.get? hv)
  · exact .nil

theorem Scope.HandlesIn.itemScope {σ : Scope} (h : σ.HandlesIn K) {loops : Fields Value}
    (hl : Frame.HandlesIn K loops) {item : Value} (hi : item.HandlesIn K) (name : String)
    (length index : Nat) : (RenderContext.itemScope name loops length index item σ).HandlesIn K := by
  refine (h.defineLocal hi name).defineLocal ?_ "repeat"
  exact Value.handlesIn_map.2 (hl.insert (RenderContext.handlesIn_repetition index length) name)

theorem Scope.HandlesIn.defineAll {σ : Scope} (h : σ.HandlesIn K) {bindings : List (String × Value)}
    (hb : ∀ binding ∈ bindings, binding.2.HandlesIn K) :
    (RenderContext.defineAll bindings σ).HandlesIn K := by
  induction bindings generalizing σ with
  | nil => exact h
  | cons binding bindings ih =>
    exact ih (h.defineLocal (hb binding (by simp)) binding.1) fun b hm => hb b (by simp [hm])

theorem handlesIn_itemsOf {v : Value} (hv : v.HandlesIn K) {items : List Value}
    (h : RenderContext.itemsOf? v = some items) : ∀ item ∈ items, item.HandlesIn K := by
  unfold RenderContext.itemsOf? at h
  split at h
  · cases h
    exact Value.handlesIn_list.1 hv
  · cases h
    intro item hi
    obtain ⟨field, -, rfl⟩ := List.mem_map.1 hi
    exact Value.handlesIn_str _
  · cases h
    intro item hi
    obtain ⟨c, -, rfl⟩ := List.mem_map.1 hi
    exact Value.handlesIn_str _
  · cases h
    exact List.forall_mem_nil _
  · cases h

end

/-! ### Values -/

/-- A context runs a well-formed program: it has the program's macros, its handles lead to them, and it can
evaluate the expressions of the program. -/
structure RenderContext.Runs (context : RenderContext) (program : Program) (K : MacroHandle → Prop) :
    Prop where
  wellFormed : program.IsWellFormed
  macros : context.macros = program.macros
  handles : ∀ m, K m → m.id < program.macros.length
  evaluates : ∀ e ∈ program.expressions, ∀ σ : Scope, σ.HandlesIn K →
    Gives (HandlesIn K) NotHost (e.expression.evaluate context.host σ)

namespace RenderContext.Runs

variable {context : RenderContext} {program : Program} {K : MacroHandle → Prop} {σ : Scope}
  {e : LocatedExpression}

theorem value (hr : context.Runs program K) (he : e ∈ program.expressions) (hσ : σ.HandlesIn K) :
    Gives (HandlesIn K) RenderFault.IsOfValue (context.value σ e) := by
  have h := hr.evaluates e he σ hσ
  unfold RenderContext.value
  split
  · next hv => exact .ok (h.of_ok hv)
  · next fault hf => exact .error ⟨fault, e.text, rfl, h.of_error hf⟩

theorem startTag (hr : context.Runs program K) {tag : TagPlan}
    (he : ∀ e ∈ tag.expressions, e ∈ program.expressions) (hσ : σ.HandlesIn K) :
    Gives (fun _ => True) RenderFault.IsOfValue (context.startTag σ tag) := by
  have hvalues : ∀ (attributes : List ComputedAttribute) (values : ComputedValues),
      (∀ a ∈ attributes, a.value ∈ program.expressions) →
      Gives (fun _ => True) RenderFault.IsOfValue (context.computedValues σ values attributes) := by
    intro attributes
    induction attributes with
    | nil => exact fun _ _ => .ok trivial
    | cons a attributes ih =>
      intro values ha
      unfold RenderContext.computedValues
      exact (hr.value (ha a (by simp)) hσ).bind fun v _ _ => ih _ fun a hm => ha a (by simp [hm])
  refine (hvalues tag.computed [] fun a ha => he _ ?_).map fun _ _ => trivial
  exact List.mem_append_left _ (List.mem_map_of_mem ha)

theorem omits (hr : context.Runs program K) {tag : TagPlan}
    (he : ∀ e ∈ tag.expressions, e ∈ program.expressions) (hσ : σ.HandlesIn K) :
    Gives (fun _ => True) RenderFault.IsOfValue (context.omits σ tag.omission) := by
  have hall : ∀ e ∈ tag.omission.expressions, e ∈ program.expressions :=
    fun e h => he e (List.mem_append_right _ h)
  cases homission : tag.omission with
  | never => exact .ok trivial
  | always => exact .ok trivial
  | when test =>
    rw [homission] at hall
    exact (hr.value (hall test (by simp [Omission.expressions])) hσ).map fun _ _ => trivial

theorem bind (hr : context.Runs program K) (he : e ∈ program.expressions) (hσ : σ.HandlesIn K)
    (kind : BindingKind) (name : String) :
    Gives (Scope.HandlesIn K) RenderFault.IsOfValue (context.bind kind name e σ) := by
  unfold RenderContext.bind
  refine (hr.value he hσ).bind fun v _ hv => ?_
  cases kind with
  | innermost => exact .ok (hσ.defineLocal hv name)
  | root => exact .ok (hσ.defineGlobal hv name)
  | existing =>
    have hset := hσ.set hv name
    dsimp only
    split
    · next h => exact .ok (hset.of_ok h)
    · next fault h => exact .error ⟨fault, e.text, rfl, hset.of_error h⟩

theorem loopItems (hr : context.Runs program K) (he : e ∈ program.expressions) (hσ : σ.HandlesIn K) :
    Gives (fun found => ∀ items, found = some items → ∀ item ∈ items, item.HandlesIn K)
      RenderFault.IsOfValue (context.loopItems σ e) := by
  unfold RenderContext.loopItems
  refine (hr.value he hσ).bind fun v _ hv => ?_
  split
  · exact .ok (by simp)
  · split
    · next items hitems =>
      refine .ok fun found hf => ?_
      cases hf
      exact handlesIn_itemsOf hv hitems
    · exact .error ⟨_, e.text, rfl, .mismatch _⟩

theorem handlerText (hr : context.Runs program K) (he : e ∈ program.expressions) (hσ : σ.HandlesIn K)
    (asMarkup : Bool) (fault : RenderFault) :
    Gives (fun _ => True) RenderFault.IsOfValue (context.handlerText e asMarkup fault σ) := by
  unfold RenderContext.handlerText
  have hinside := hσ.push.defineLocal (RenderContext.handlesIn_failureRecord (K := K) fault) "error"
  exact (hr.value he hinside).bind fun v _ _ => .ok trivial

/-! ### Calls -/

section Calls

variable {callee : MacroTarget} {fills : List (String × Block)} {arguments : List (String × Argument)}
  {location : Location}

theorem bindParameter (hr : context.Runs program K) (hσ : σ.HandlesIn K) {p : Parameter}
    (hp : ∀ e ∈ p.expressions, e ∈ program.expressions)
    (ha : ∀ argument ∈ arguments, ∀ e ∈ argument.2.expressions, e ∈ program.expressions) :
    Gives (fun binding => binding.2.HandlesIn K) RenderFault.IsOfValue
      (context.bindParameter σ arguments location p) := by
  have hsource : ∀ e, (RenderContext.passed? arguments p.name).or p.default? = some e →
      e ∈ program.expressions := by
    intro e he
    rcases Option.or_eq_some_iff.1 he with he | ⟨-, he⟩
    · unfold RenderContext.passed? at he
      split at he
      · next hl =>
        cases he
        exact ha _ (Fields.mem_of_get? hl) e (by simp [Argument.expressions])
      · cases he
    · exact hp e (by simp [Parameter.expressions, he])
  have hcoerce (source : Option LocatedExpression) {v : Value} (hv : v.HandlesIn K) :
      Gives (HandlesIn K) RenderFault.IsOfValue (RenderContext.coerceFor p source location v) := by
    have h := hv.coerce p.type
    unfold RenderContext.coerceFor
    split
    · next hok => exact .ok (h.of_ok hok)
    · next fault hf => exact .error ⟨fault, _, rfl, h.of_error hf⟩
  unfold RenderContext.bindParameter
  dsimp only
  split
  · next source hs =>
    exact (hr.value (hsource source hs) hσ).bind fun v _ hv =>
      (hcoerce _ hv).bind fun w _ hw => .ok hw
  · exact (Gives.ok Value.handlesIn_nothing).bind fun v _ hv => (hcoerce _ hv).bind fun w _ hw => .ok hw

theorem bindParameters (hr : context.Runs program K) (hσ : σ.HandlesIn K) {m : Macro}
    (hm : m ∈ program.macros)
    (ha : ∀ argument ∈ arguments, ∀ e ∈ argument.2.expressions, e ∈ program.expressions) :
    Gives (fun bindings => ∀ binding ∈ bindings, binding.2.HandlesIn K) RenderFault.IsOfValue
      (m.parameters.mapM (context.bindParameter σ arguments location)) := by
  refine Gives.mapM fun p hp => hr.bindParameter hσ (fun e he => ?_) ha
  exact List.mem_append_right _ (List.mem_flatMap.2 ⟨m, hm,
    List.mem_append_left _ (List.mem_flatMap.2 ⟨p, hp, he⟩)⟩)

theorem argument_expressions
    (h : program.Contains (.callMacro callee fills arguments location)) :
    ∀ argument ∈ arguments, ∀ e ∈ argument.2.expressions, e ∈ program.expressions := by
  intro argument ha e he
  refine h.mem_expressions ?_
  exact List.mem_append_right _ (List.mem_flatMap.2 ⟨argument, ha, he⟩)

/-- A call whose macro is known finds it, and its parameters. -/
theorem prepareKnown (hr : context.Runs program K) (hσ : σ.HandlesIn K) {id : Nat}
    (h : program.Contains (.callMacro (.known id) fills arguments location)) :
    Gives (fun found => found.1 ∈ program.macros ∧ ∀ binding ∈ found.2, binding.2.HandlesIn K)
      RenderFault.IsOfValue (context.prepareCall σ (.known id) arguments location) := by
  have hargs := argument_expressions h
  obtain ⟨b, hb, hop⟩ := h
  obtain ⟨m, hm, hdeclared⟩ := hr.wellFormed.calls b hb id fills arguments location hop
  have hmem := List.mem_of_getElem? hm
  have hknown : RenderContext.unknownArgument? m arguments = none := by
    refine List.find?_eq_none.2 fun name hn => ?_
    obtain ⟨argument, ha, rfl⟩ := List.mem_map.1 hn
    simpa using hdeclared argument ha
  rw [← hr.macros] at hm
  have htarget : Gives (· = id) RenderFault.IsOfValue (context.target σ (.known id)) := .ok rfl
  unfold RenderContext.prepareCall
  refine htarget.bind fun found _ hfound => ?_
  rw [hfound, hm]
  dsimp only
  rw [hknown]
  exact (hr.bindParameters hσ hmem hargs).bind fun bindings _ hbindings => .ok ⟨hmem, hbindings⟩

/-- A call finds a macro of the program, if it calls a macro at all. -/
theorem prepareCall (hr : context.Runs program K) (hσ : σ.HandlesIn K)
    (h : program.Contains (.callMacro callee fills arguments location)) :
    Gives (fun found => found.1 ∈ program.macros ∧ ∀ binding ∈ found.2, binding.2.HandlesIn K)
      (fun fault => ¬fault.IsInternal) (context.prepareCall σ callee arguments location) := by
  cases callee with
  | known id => exact (hr.prepareKnown hσ h).weaken fun _ hf => hf.not_isInternal
  | computed e =>
    have he : e ∈ program.expressions :=
      h.mem_expressions (List.mem_append_left _ (List.mem_append_left _ List.mem_cons_self))
    have htarget : Gives (fun id => id < program.macros.length) (fun fault => ¬fault.IsInternal)
        (context.target σ (.computed e)) := by
      unfold RenderContext.target
      refine ((hr.value he hσ).weaken fun _ hf => hf.not_isInternal).bind fun v _ hv => ?_
      split
      · next m _ => exact .ok (hr.handles m (Value.handlesIn_handle.1 hv))
      · exact .error fun h => h
    unfold RenderContext.prepareCall
    refine htarget.bind fun id _ hid => ?_
    rw [hr.macros, List.getElem?_eq_getElem hid]
    dsimp only
    split
    · exact .error fun h => h
    · have hmem := List.getElem_mem hid
      exact ((hr.bindParameters hσ hmem (argument_expressions h)).weaken
        fun _ hf => hf.not_isInternal).bind fun bindings _ hbindings => .ok ⟨hmem, hbindings⟩

end Calls

end RenderContext.Runs

end MarkupTemplate
