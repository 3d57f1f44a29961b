import MarkupTemplate.Proofs.Compile.EvaluationOrder
import MarkupTemplate.Proofs.Directive.Entries

/-!
# How elements fail

A fault of a directive is placed at this directive (`StartTag.stage_fails`). An element whose directives fail
fails like the first of them in the order of evaluation, and its handler is given this fault
(`BuildContext.element_fails`). This is not the order in which directives are collected: attributes that fail come
before content that fails (`BuildContext.element_ne_content`).
-/

namespace MarkupTemplate

/-! ### The place of a fault -/

/-- An evaluation has failed for a directive at this place. -/
def RenderFault.IsAt (location : Location) (fault : RenderFault) : Prop :=
  ∃ f text, fault = ⟨.evaluation f text, some location⟩

theorem RenderFault.IsAt.isRecoverable {location : Location} {fault : RenderFault} (h : fault.IsAt location) :
    fault.isRecoverable := by
  obtain ⟨f, text, rfl⟩ := h
  cases f <;> rfl

namespace RenderContext

variable (context : RenderContext) (scope : Scope) (e : LocatedExpression)

theorem value_gives : Gives (fun _ => True) (·.IsAt e.location) (context.value scope e) := by
  unfold value
  split
  · exact .ok trivial
  · exact .error ⟨_, _, rfl⟩

theorem bind_gives (kind : BindingKind) (name : String) :
    Gives (fun _ => True) (·.IsAt e.location) (context.bind kind name e scope) := by
  refine (context.value_gives scope e).bind fun v _ _ => ?_
  cases kind with
  | innermost => exact .ok trivial
  | root => exact .ok trivial
  | existing =>
    dsimp only
    split
    · exact .ok trivial
    · exact .error ⟨_, _, rfl⟩

theorem loopItems_gives : Gives (fun _ => True) (·.IsAt e.location) (context.loopItems scope e) := by
  refine (context.value_gives scope e).bind fun v _ _ => ?_
  split
  · exact .ok trivial
  · split
    · exact .ok trivial
    · exact .error ⟨_, _, rfl⟩

theorem omits_gives {location : Location} {omission : Omission}
    (h : ∀ e, omission = .when e → e.location = location) :
    Gives (fun _ => True) (·.IsAt location) (context.omits scope omission) := by
  cases omission with
  | never => exact .ok trivial
  | always => exact .ok trivial
  | when e =>
    rw [← h e rfl]
    exact (context.value_gives scope e).map fun _ _ => trivial

theorem attributeValues_gives {location : Location} {computed : List ComputedAttribute}
    (h : ∀ a ∈ computed, a.value.location = location) :
    Gives (fun _ => True) (·.IsAt location) (context.attributeValues scope computed) := by
  have hvalues : ∀ a ∈ computed, Gives (fun _ => True) (·.IsAt location) (context.value scope a.value) :=
    fun a ha => h a ha ▸ context.value_gives scope a.value
  exact (Gives.mapM hvalues).imp fun _ _ _ => trivial

end RenderContext

namespace Directive

variable {location : Location} {argument : String}

theorem expression_place {cs : List Char} {e : LocatedExpression} (h : expression cs location = .ok e) :
    e.location = location := by
  unfold expression at h
  split at h
  · cases h
    rfl
  · cases h

theorem definitions_place {ds : List Definition} (h : definitions argument location = .ok ds) :
    ∀ d ∈ ds, d.value.location = location := by
  intro d hd
  obtain ⟨entry, -, h⟩ := mem_of_mapM_ok h hd
  obtain ⟨written, rest, -, he⟩ := definition_ok h
  exact expression_place he

theorem loop_place {l : String × LocatedExpression} (h : loop argument location = .ok l) :
    l.2.location = location := by
  obtain ⟨written, rest, -, he⟩ := loop_ok h
  exact expression_place he

theorem content_place {c : Bool × LocatedExpression} (h : content argument location = .ok c) :
    c.2.location = location := by
  unfold content at h
  dsimp only at h
  split at h
  all_goals
    obtain ⟨e, he, h⟩ := bind_eq_ok.1 h
    cases h
    exact expression_place he

theorem computedAttributes_place {computed : List ComputedAttribute}
    (h : computedAttributes argument location = .ok computed) : ∀ a ∈ computed, a.value.location = location := by
  intro a ha
  obtain ⟨entry, -, h⟩ := mem_of_mapM_ok h ha
  obtain ⟨-, rest, he⟩ := computedAttribute_ok h
  exact expression_place he

theorem omission_place {o : Omission} (h : omission argument location = .ok o) :
    ∀ e, o = .when e → e.location = location := by
  rintro e rfl
  unfold omission at h
  split at h
  · cases h
  · obtain ⟨e', he, h⟩ := map_eq_ok.1 h
    cases h
    exact expression_place he

end Directive

theorem DirectiveSet.of_said? {set : DirectiveSet} {kind : TalKind} {α : Type} {a : α}
    {parse : String → Location → Except CompileProblem α} (h : set.said? kind parse = some a) :
    ∃ d, set.tal? kind = some d ∧ parse d.argument d.location = .ok a := by
  obtain ⟨d, hd, h⟩ := Option.bind_eq_some_iff.1 h
  exact ⟨d, hd, eq_ok_of_toOption h⟩

/-- A directive that fails fails with a fault of its own. -/
theorem StartTag.stage_fails {context : RenderContext} {start : StartTag} {set : DirectiveSet} {scope : Scope}
    {kind : TalKind} {fault : RenderFault} (h : DirectiveSet.ofTag start = .ok set)
    (hs : start.tal.stage context scope kind = .fails fault) :
    ∃ d, set.tal? kind = some d ∧ fault.IsAt d.location := by
  rw [tal_eq h] at hs
  have hcontent (kind : TalKind) (hs : Tal.contentStage context scope (set.said? kind Directive.content) =
      .fails fault) : ∃ d, set.tal? kind = some d ∧ fault.IsAt d.location := by
    unfold Tal.contentStage at hs
    split at hs
    · cases hs
    · next asMarkup e hsaid =>
      obtain ⟨d, hd, he⟩ := DirectiveSet.of_said? hsaid
      obtain hv | ⟨v, -, hs⟩ := Stage.after_fails hs
      · exact ⟨d, hd, Directive.content_place he ▸ (context.value_gives scope e).of_error hv⟩
      · split at hs <;> cases hs
  cases kind with
  | define =>
    simp only [Tal.stage] at hs
    split at hs
    · cases hs
    · next ds hsaid =>
      obtain ⟨d, hd, hds⟩ := DirectiveSet.of_said? hsaid
      obtain hv | ⟨v, -, hs⟩ := Stage.after_fails hs
      · refine ⟨d, hd, ((Gives.foldlM (Q := fun _ => True) fun a ha σ _ => ?_) trivial).of_error hv⟩
        rw [← Directive.definitions_place hds a ha]
        exact context.bind_gives σ a.value a.kind a.name
      · cases hs
  | condition =>
    simp only [Tal.stage] at hs
    split at hs
    · cases hs
    · next e hsaid =>
      obtain ⟨d, hd, he⟩ := DirectiveSet.of_said? hsaid
      obtain hv | ⟨v, -, hs⟩ := Stage.after_fails hs
      · exact ⟨d, hd, Directive.expression_place he ▸ (context.value_gives scope e).of_error hv⟩
      · split at hs <;> cases hs
  | loop =>
    simp only [Tal.stage] at hs
    split at hs
    · cases hs
    · next name items hsaid =>
      obtain ⟨d, hd, hl⟩ := DirectiveSet.of_said? hsaid
      obtain hv | ⟨v, -, hs⟩ := Stage.after_fails hs
      · exact ⟨d, hd, Directive.loop_place hl ▸ (context.loopItems_gives scope items).of_error hv⟩
      · unfold Tal.loopStage at hs
        split at hs <;> cases hs
  | content => exact hcontent _ hs
  | replace => exact hcontent _ hs
  | omitTag =>
    obtain hv | ⟨_, -, hs⟩ := Stage.after_fails hs
    · split at hv
      · cases hv
      · cases hsaid : set.said? .omitTag Directive.omission with
        | none => rw [hsaid] at hv; cases hv
        | some o =>
          rw [hsaid] at hv
          obtain ⟨d, hd, ho⟩ := DirectiveSet.of_said? hsaid
          exact ⟨d, hd, (context.omits_gives scope (Directive.omission_place ho)).of_error hv⟩
    · cases hs
  | attributes =>
    simp only [Tal.stage] at hs
    split at hs
    · cases hs
    · obtain hv | ⟨_, -, hs⟩ := Stage.after_fails hs
      · cases hsaid : set.said? .attributes Directive.computedAttributes with
        | none => rw [hsaid] at hv; cases hv
        | some computed =>
          rw [hsaid] at hv
          obtain ⟨d, hd, hc⟩ := DirectiveSet.of_said? hsaid
          exact ⟨d, hd, (context.attributeValues_gives scope (Directive.computedAttributes_place hc)).of_error hv⟩
      · cases hs
  | onError => cases hs

theorem StartTag.firstFault_place {context : RenderContext} {start : StartTag} {set : DirectiveSet}
    {kinds : List TalKind} {scope : Scope} {kind : TalKind} {fault : RenderFault}
    (h : DirectiveSet.ofTag start = .ok set)
    (hf : start.tal.firstFault? context kinds scope = some (kind, fault)) :
    ∃ d, set.tal? kind = some d ∧ fault.IsAt d.location := by
  induction kinds generalizing scope with
  | nil => cases hf
  | cons first kinds ih =>
    unfold Tal.firstFault? at hf
    split at hf
    · exact ih hf
    · cases hf
    · next hs =>
      cases hf
      exact stage_fails h hs

/-! ### What is reported -/

theorem Expression.evaluate_member {host : HostEvaluator} {scope : Scope} {name key : String}
    {fields : Fields Value} {v : Value} (h : fields.get? key = some v) :
    (Expression.path ⟨name, [key]⟩).evaluate host (scope.push.defineLocal name (.map fields)) = .ok v := by
  have hname : (scope.push.defineLocal name (.map fields)).get? name = some (.map fields) := by
    simp [Scope.push, Scope.defineLocal, Scope.get?, Fields.get?_insert]
  simp only [evaluate, Path.resolve, hname, Path.follow, Value.get?, h]

/-- What a handler sees of a fault. -/
theorem RenderContext.evaluate_failureRecord (host : HostEvaluator) (fault : RenderFault) (scope : Scope) :
    (Expression.path ⟨"error", ["type"]⟩).evaluate host (scope.push.defineLocal "error" (failureRecord fault)) =
        .ok (.str fault.problem.typeName) ∧
      (Expression.path ⟨"error", ["value"]⟩).evaluate host
        (scope.push.defineLocal "error" (failureRecord fault)) = .ok (.str fault.problem.message) := by
  cases hl : fault.location <;> simp only [failureRecord, hl] <;>
    exact ⟨Expression.evaluate_member (by simp [Fields.ofList, Fields.get?_insert]),
      Expression.evaluate_member (by simp [Fields.ofList, Fields.get?_insert])⟩

namespace RenderContext

variable {context : RenderContext} {enter : Block → Run RenderState Unit}

/-- A handler takes over from a block that fails. -/
theorem run_onError {body : Block} {s : RenderState} {fault : RenderFault} (h : context.Fails enter body s fault)
    (hr : fault.isRecoverable) (handler : LocatedExpression) (asMarkup : Bool) :
    ∃ t, (context.operation enter (.onError body handler asMarkup)).run s =
      (context.recover handler asMarkup s.mark fault).run t := by
  obtain ⟨t, h⟩ := h
  refine ⟨t, ?_⟩
  simp only [operation, guard, h, hr, if_true]

end RenderContext

namespace BuildContext

variable {build : BuildContext} {start : StartTag} {closing : Option EndTag}
  {children : Unit → Except TemplateFault Block} {fills : Fills → Except TemplateFault Fills} {out : Block}

/-- An element that is no call in the place of a macro's definition fails, wherever it is run, if one of its
directives fails there, and with the fault of the first that fails in the order of evaluation. This fault is
placed at the directive. The handler of the element, or one around it, sees its type and its message. In the later
turns of a repetition the directives behind it fail in the same order. -/
theorem element_fails (h : build.element start closing children fills = .ok out) :
    ∃ set, DirectiveSet.ofTag start = .ok set ∧
      ((set.metal? .defineMacro).isSome ∧ (∃ id, out = [.callMacro (.known id) [] [] start.location]) ∨
        ∃ core block,
          block = start.tal.handler?.elim (start.tal.around core)
            (fun (asMarkup, e) => [.onError (start.tal.around core) e asMarkup]) ∧
          out = (match set.metal? .defineSlot with
            | some d => [.slot (Text.trimString d.argument) block]
            | none => block) ∧
          ∀ context enter s kind fault,
            (start.tal.firstFault? context set.coreOrder s.scope = some (kind, fault) →
              RenderContext.Fails context enter core s fault) ∧
            (start.tal.firstFault? context set.evaluationOrder s.scope = some (kind, fault) →
              RenderContext.Fails context enter (start.tal.around core) s fault ∧
              (∃ d, set.tal? kind = some d ∧ fault.IsAt d.location) ∧
              ∀ handler asMarkup, (∃ t, (context.operation enter
                  (.onError (start.tal.around core) handler asMarkup)).run s =
                (context.recover handler asMarkup s.mark fault).run t) ∧
                ∀ scope : Scope, let seen := scope.push.defineLocal "error" (RenderContext.failureRecord fault)
                  (Expression.path ⟨"error", ["type"]⟩).evaluate context.host seen =
                      .ok (.str fault.problem.typeName) ∧
                    (Expression.path ⟨"error", ["value"]⟩).evaluate context.host seen =
                      .ok (.str fault.problem.message))) := by
  obtain ⟨set, hset, h⟩ := element_ok h
  refine ⟨set, hset, ?_⟩
  obtain ⟨hd, id, -, hout⟩ | ⟨core, hcore, hout⟩ := h
  · exact .inl ⟨hd, id, hout⟩
  have hfails (context : RenderContext) (enter : Block → Run RenderState Unit) :
      context.FailsFirst enter start.tal set.coreOrder core := by
    rw [DirectiveSet.coreOrder]
    cases hu : set.metal? .useMacro with
    | some use => exact RenderContext.failsFirst_nil
    | none =>
      rw [hu] at hcore
      obtain ⟨block, -, hcore⟩ := hcore
      exact StartTag.core_failsFirst hset hcore
  have hwrapped : set.wrapped core = start.tal.handler?.elim (start.tal.around core)
      (fun (asMarkup, e) => [.onError (start.tal.around core) e asMarkup]) := by
    rw [StartTag.tal_eq hset]
    rfl
  refine .inr ⟨core, set.wrapped core, hwrapped, hout, fun context enter s kind fault =>
    ⟨hfails context enter s kind fault, fun hf => ?_⟩⟩
  have haround := (hfails context enter).around s kind fault hf
  obtain ⟨d, hd, hplace⟩ := StartTag.firstFault_place hset hf
  exact ⟨haround, ⟨d, hd, hplace⟩, fun handler asMarkup =>
    ⟨RenderContext.run_onError haround hplace.isRecoverable handler asMarkup,
      RenderContext.evaluate_failureRecord context.host fault⟩⟩

/-- The content of the element and one of its attributes fail. -/
def failingTwice : StartTag where
  name := ⟨none, "p"⟩
  rawName := "p"
  attributes := [⟨⟨some talSpace, "content"⟩, "tal:content", " ", some "=", some "a", some '"', ⟨⟨1, 4, 3⟩, none⟩⟩,
    ⟨⟨some talSpace, "attributes"⟩, "tal:attributes", " ", some "=", some "x b", some '"', ⟨⟨1, 20, 19⟩, none⟩⟩]
  close := "/>"
  text := "<p tal:content=\"a\" tal:attributes=\"x b\"/>"
  selfClosing := true
  location := ⟨⟨1, 1, 0⟩, none⟩

/-- The directives of this element. -/
def directivesOfFailingTwice : DirectiveSet :=
  ⟨[⟨.content, "a", ⟨⟨1, 4, 3⟩, none⟩⟩, ⟨.attributes, "x b", ⟨⟨1, 20, 19⟩, none⟩⟩], []⟩

theorem ofTag_failingTwice : DirectiveSet.ofTag failingTwice = .ok directivesOfFailingTwice := by
  have hfold : failingTwice.attributes.foldlM (DirectiveSet.addAttribute failingTwice) ⟨[], []⟩ =
      .ok directivesOfFailingTwice := eq_ok_of_toOption (by decide +kernel)
  have hsorted : DirectiveSet.inOrder directivesOfFailingTwice.tal = directivesOfFailingTwice.tal :=
    List.mergeSort_of_pairwise (by decide)
  unfold DirectiveSet.ofTag
  rw [hfold]
  show Except.ok (DirectiveSet.mk (DirectiveSet.inOrder directivesOfFailingTwice.tal) _) = _
  rw [hsorted]

/-- The block of this element without children. -/
def blockOfFailingTwice : Except TemplateFault Block := do
  let block ← failingTwice.core none directivesOfFailingTwice []
  directivesOfFailingTwice.wrap block

theorem element_failingTwice : element ⟨default, [], 0, none⟩ failingTwice none (fun _ => .ok []) .ok =
    blockOfFailingTwice := by
  unfold element
  rw [ofTag_failingTwice]
  rfl

theorem element_fails_failingTwice : ∃ (out core : Block) (fault : RenderFault),
    element ⟨default, [], 0, none⟩ failingTwice none (fun _ => .ok []) .ok = .ok out ∧
    failingTwice.tal.firstFault? TagPlan.plainContext directivesOfFailingTwice.evaluationOrder (.ofGlobals []) =
      some (.attributes, fault) ∧
    RenderContext.Fails TagPlan.plainContext (fun _ => Run.exhaust) (failingTwice.tal.around core)
      (.initial (.ofGlobals [])) fault := by
  have hout : blockOfFailingTwice.toOption.isSome := by decide +kernel
  have hfault : (failingTwice.tal.firstFault? TagPlan.plainContext directivesOfFailingTwice.evaluationOrder
      (.ofGlobals [])).any fun found => found.1 = .attributes := by
    rw [StartTag.tal_eq ofTag_failingTwice]
    decide +kernel
  obtain ⟨out, hout⟩ := Option.isSome_iff_exists.1 hout
  obtain ⟨⟨kind, fault⟩, hf, hk⟩ := (Option.any_eq_true ..).1 hfault
  obtain rfl : kind = .attributes := of_decide_eq_true hk
  have he := element_failingTwice.trans (eq_ok_of_toOption hout)
  obtain ⟨set, hset, h⟩ := element_fails he
  cases hset.symm.trans ofTag_failingTwice
  obtain ⟨hd, -⟩ | ⟨core, block, -, -, h⟩ := h
  · cases hd
  · exact ⟨out, core, fault, he, hf, ((h TagPlan.plainContext _ (.initial (.ofGlobals [])) _ _).2 hf).1⟩

/-- The fault of a run. -/
def faultOf? : Outcome RenderState Unit → Option RenderFault
  | .failed fault _ => some fault
  | _ => none

theorem eq_of_faultOf? {o : Outcome RenderState Unit} {fault : RenderFault} (h : faultOf? o = some fault) :
    ∃ t, o = .failed fault t := by
  unfold faultOf? at h
  split at h
  · cases h
    exact ⟨_, rfl⟩
  · cases h

/-- The content comes before the attributes in the order of the directives, but the element does not fail like
its content. -/
theorem element_ne_content : ∃ (out : Block) (t : RenderState) (fault other : RenderFault),
    TalKind.content.priority < TalKind.attributes.priority ∧
    element ⟨default, [], 0, none⟩ failingTwice none (fun _ => .ok []) .ok = .ok out ∧
    failingTwice.tal.firstFault? TagPlan.plainContext [.content] (.ofGlobals []) = some (.content, fault) ∧
    (TagPlan.plainContext.runBlock 0 out).run (.initial (.ofGlobals [])) = .failed other t ∧ fault ≠ other := by
  have hrun : blockOfFailingTwice.toOption.any fun out =>
      (faultOf? ((TagPlan.plainContext.runBlock 0 out).run (.initial (.ofGlobals [])))).any fun other =>
        other.location = some ⟨⟨1, 20, 19⟩, none⟩ := by
    decide +kernel
  have hcontent : (failingTwice.tal.firstFault? TagPlan.plainContext [.content] (.ofGlobals [])).any fun found =>
      found.1 = .content ∧ found.2.location = some ⟨⟨1, 4, 3⟩, none⟩ := by
    rw [StartTag.tal_eq ofTag_failingTwice]
    decide +kernel
  obtain ⟨out, hout, hrun⟩ := (Option.any_eq_true ..).1 hrun
  obtain ⟨other, hother, hplace⟩ := (Option.any_eq_true ..).1 hrun
  obtain ⟨t, ht⟩ := eq_of_faultOf? hother
  obtain ⟨⟨kind, fault⟩, hf, h⟩ := (Option.any_eq_true ..).1 hcontent
  obtain ⟨rfl, hfault⟩ := of_decide_eq_true h
  refine ⟨out, t, fault, other, by decide, element_failingTwice.trans (eq_ok_of_toOption hout), hf, ht, ?_⟩
  rintro rfl
  cases hfault.symm.trans (of_decide_eq_true hplace)

end BuildContext

end MarkupTemplate
