import MarkupTemplate.Proofs.Compile.Directives
import MarkupTemplate.Proofs.Render.Rewriting
import MarkupTemplate.Proofs.Render.Trees

/-!
# The order in which the directives of an element are evaluated

The evaluation of a directive goes on to the next one, stops, or fails (`Tal.stage`). A block fails like the first
directive that fails (`RenderContext.FailsFirst`) in the order definitions, condition, repetition, replacement,
omission of the tags, attributes, content. The tags are decided on and the attributes evaluated before the content,
as the text of the start tag comes first.
-/

namespace MarkupTemplate

/-- What the evaluation of a directive leads to. -/
inductive Stage where
  /-- The next directive is evaluated with these variables. -/
  | goesOn (scope : Scope)
  /-- No other directive of the element is evaluated. -/
  | stops
  | fails (fault : RenderFault)

/-- The stage that comes from the result of an evaluation. -/
def Stage.after {α : Type} (x : Except RenderFault α) (next : α → Stage) : Stage :=
  match x with
  | .ok a => next a
  | .error fault => .fails fault

namespace Tal

variable (context : RenderContext) (tal : Tal) (scope : Scope)

/-- The stage of a value that is written, unless it is `default`. -/
def contentStage : Option (Bool × LocatedExpression) → Stage
  | none => .goesOn scope
  | some (_, e) => .after (context.value scope e) fun v => if v.isDefault then .goesOn scope else .stops

/-- What a repetition leads to: the variables of its first turn, if it has one. -/
def loopStage (name : String) : Option (List Value) → Stage
  | none => .goesOn scope
  | some [] => .stops
  | some (item :: items) => .goesOn <|
      RenderContext.itemScope name (RenderContext.outerLoops scope) (items.length + 1) 0 item scope.push

/-- What the directive of a kind leads to where these variables are bound. Attributes of a tag that is left out
are not evaluated. -/
def stage : TalKind → Stage
  | .define =>
    match tal.definitions? with
    | none => .goesOn scope
    | some ds => .after (ds.foldlM (fun σ d => context.bind d.kind d.name d.value σ) scope.push) .goesOn
  | .condition =>
    match tal.condition? with
    | none => .goesOn scope
    | some test => .after (context.value scope test) fun v => if v.isTruthy then .goesOn scope else .stops
  | .loop =>
    match tal.loop? with
    | none => .goesOn scope
    | some (name, items) => .after (context.loopItems scope items) (loopStage scope name)
  | .replace => contentStage context scope tal.replacement?
  | .omitTag => .after (context.omits scope tal.omission) fun _ => .goesOn scope
  | .attributes =>
    match context.omits scope tal.omission with
    | .ok true => .goesOn scope
    | _ => .after (context.attributeValues scope tal.computed) fun _ => .goesOn scope
  | .content => contentStage context scope tal.content?
  | .onError => .goesOn scope

/-- The first directive that fails if those of these kinds are evaluated in order, and how it fails. -/
def firstFault? : List TalKind → Scope → Option (TalKind × RenderFault)
  | [], _ => none
  | kind :: kinds, scope =>
    match tal.stage context scope kind with
    | .goesOn scope => firstFault? kinds scope
    | .stops => none
    | .fails fault => some (kind, fault)

end Tal

namespace DirectiveSet

/-- The directives that say what an element is written as, in the order of evaluation. An element that uses a
macro has none. -/
def coreOrder (set : DirectiveSet) : List TalKind :=
  if (set.metal? .useMacro).isSome then [] else [.replace, .omitTag, .attributes, .content]

/-- The order in which the directives of an element are evaluated. -/
def evaluationOrder (set : DirectiveSet) : List TalKind :=
  .define :: .condition :: .loop :: set.coreOrder

end DirectiveSet

namespace Tal

variable {context : RenderContext} {tal : Tal} {scope : Scope} {kind found : TalKind} {kinds : List TalKind}
  {fault : RenderFault}

theorem firstFault?_cons (h : tal.firstFault? context (kind :: kinds) scope = some (found, fault)) :
    tal.stage context scope kind = .fails fault ∨
      ∃ σ, tal.stage context scope kind = .goesOn σ ∧ tal.firstFault? context kinds σ = some (found, fault) := by
  unfold firstFault? at h
  cases hs : tal.stage context scope kind with
  | goesOn σ =>
    rw [hs] at h
    exact .inr ⟨σ, rfl, h⟩
  | stops => rw [hs] at h; cases h
  | fails fault' =>
    rw [hs] at h
    cases h
    exact .inl rfl

end Tal

theorem Stage.after_fails {α : Type} {x : Except RenderFault α} {next : α → Stage} {fault : RenderFault}
    (h : after x next = .fails fault) : x = .error fault ∨ ∃ a, x = .ok a ∧ next a = .fails fault := by
  cases x with
  | ok a => exact .inr ⟨a, rfl, h⟩
  | error fault' =>
    cases h
    exact .inl rfl

theorem Stage.after_goesOn {α : Type} {x : Except RenderFault α} {next : α → Stage} {scope : Scope}
    (h : after x next = .goesOn scope) : ∃ a, x = .ok a ∧ next a = .goesOn scope := by
  cases x with
  | ok a => exact ⟨a, rfl, h⟩
  | error fault => cases h

/-! ### Blocks that fail -/

theorem Run.run_inFrame_failed {x : Run RenderState Unit} {s t : RenderState} {fault : RenderFault}
    (h : x.run (s.withScope s.scope.push) = .failed fault t) : (inFrame x).run s = .failed fault t :=
  (run_bind_done rfl).trans (run_bind_failed h)

namespace RenderContext

variable {context : RenderContext} {enter : Block → Run RenderState Unit} {s : RenderState}
  {fault : RenderFault}

/-- The block fails in this state, with this fault. -/
def Fails (context : RenderContext) (enter : Block → Run RenderState Unit) (block : Block) (s : RenderState)
    (fault : RenderFault) : Prop :=
  ∃ t, (context.operations enter block).run s = .failed fault t

theorem Fails.append {block : Block} (h : context.Fails enter block s fault) (more : Block) :
    context.Fails enter (block ++ more) s fault := by
  induction block generalizing s with
  | nil =>
    obtain ⟨t, h⟩ := h
    cases h
  | cons op ops ih =>
    obtain ⟨t, h⟩ := h
    cases ho : (context.operation enter op).run s with
    | done a u =>
      have h : (context.operations enter ops).run u = .failed fault t := (Run.run_bind_done ho).symm.trans h
      obtain ⟨t', ht'⟩ := ih ⟨t, h⟩
      exact ⟨t', (Run.run_bind_done ho).trans ht'⟩
    | failed fault' u =>
      have h : Outcome.failed fault' u = .failed fault t := (Run.run_bind_failed ho).symm.trans h
      cases h
      exact ⟨t, Run.run_bind_failed ho⟩
    | exhausted => cases (Run.run_bind_exhausted ho).symm.trans h

theorem fails_cons {op : Operation} {ops : Block} {t : RenderState}
    (h : (context.operation enter op).run s = .failed fault t) : context.Fails enter (op :: ops) s fault :=
  ⟨t, Run.run_bind_failed h⟩

theorem Fails.cons {op : Operation} {ops : Block} {t : RenderState}
    (ho : (context.operation enter op).run s = .done () t) (h : context.Fails enter ops t fault) :
    context.Fails enter (op :: ops) s fault :=
  h.imp fun _ h => (Run.run_bind_done ho).trans h

/-- Definitions fail like the first of them, or the rest of the block does with what they define. -/
theorem fails_definitions {ds : List Directive.Definition} {rest : Block}
    (h : (ds.foldlM (fun σ d => context.bind d.kind d.name d.value σ) s.scope) = .error fault ∨
      ∃ σ, (ds.foldlM (fun σ d => context.bind d.kind d.name d.value σ) s.scope) = .ok σ ∧
        context.Fails enter rest (s.withScope σ) fault) :
    context.Fails enter (ds.map (fun d => .define d.kind d.name d.value) ++ rest) s fault := by
  induction ds generalizing s with
  | nil =>
    obtain h | ⟨σ, h, hrest⟩ := h
    · cases h
    · cases h
      exact hrest
  | cons d ds ih =>
    simp only [List.foldlM_cons] at h
    cases hd : context.bind d.kind d.name d.value s.scope with
    | error fault' =>
      have hfault : fault' = fault := by
        rw [hd] at h
        obtain h | ⟨σ, h, -⟩ := h
        · exact Except.error.inj h
        · cases h
      subst hfault
      have hread : (Run.readScope (context.bind d.kind d.name d.value)).run s = .failed fault' s :=
        Run.run_read_error hd
      exact fails_cons (Run.run_bind_failed hread)
    | ok σ =>
      rw [hd] at h
      have hread : (Run.readScope (context.bind d.kind d.name d.value)).run s = .done σ s :=
        Run.run_read_ok hd
      exact .cons (t := s.withScope σ) (Run.run_bind_done hread) (ih h)

/-! ### What each stage says of its block -/

/-- The block fails like the first directive of these kinds that fails. -/
def FailsFirst (context : RenderContext) (enter : Block → Run RenderState Unit) (tal : Tal)
    (kinds : List TalKind) (block : Block) : Prop :=
  ∀ s kind fault, tal.firstFault? context kinds s.scope = some (kind, fault) → context.Fails enter block s fault

variable {tal : Tal} {kinds : List TalKind} {body : Block}

theorem failsFirst_nil : context.FailsFirst enter tal [] body := fun _ _ _ h => by cases h

/-- One more stage: it fails itself, or what it goes on to fails. -/
theorem FailsFirst.cons {block : Block} {kind : TalKind} (hb : context.FailsFirst enter tal kinds body)
    (hfails : ∀ s fault, tal.stage context s.scope kind = .fails fault → context.Fails enter block s fault)
    (hgoes : ∀ s σ fault, tal.stage context s.scope kind = .goesOn σ →
      (∀ u : RenderState, u.scope = σ → context.Fails enter body u fault) → context.Fails enter block s fault) :
    context.FailsFirst enter tal (kind :: kinds) block := by
  intro s found fault h
  obtain hs | ⟨σ, hs, h⟩ := Tal.firstFault?_cons h
  · exact hfails s fault hs
  · exact hgoes s σ fault hs fun u hu => hb u found fault (hu ▸ h)

/-- A stage whose directive is not there. -/
theorem FailsFirst.absent {kind : TalKind} (hb : context.FailsFirst enter tal kinds body)
    (h : ∀ σ, tal.stage context σ kind = .goesOn σ) : context.FailsFirst enter tal (kind :: kinds) body := by
  refine hb.cons (fun s fault hs => ?_) fun s σ fault hs hbody => ?_
  · cases (h _).symm.trans hs
  · cases (h _).symm.trans hs
    exact hbody s rfl

theorem FailsFirst.define (hb : context.FailsFirst enter tal kinds body) :
    context.FailsFirst enter tal (.define :: kinds)
      (tal.definitions?.elim body (DirectiveSet.inScope · body)) := by
  cases hd : tal.definitions? with
  | none => exact hb.absent fun σ => by simp only [Tal.stage, hd]
  | some ds =>
    have hscope : DirectiveSet.inScope ds body =
        .pushScope :: (ds.map (fun d => .define d.kind d.name d.value) ++ (body ++ [.popScope])) := by
      simp [DirectiveSet.inScope]
    rw [Option.elim_some, hscope]
    refine hb.cons (fun s fault hs => ?_) fun s σ fault hs hbody => ?_
    all_goals simp only [Tal.stage, hd] at hs
    all_goals refine .cons (t := s.withScope s.scope.push) rfl (fails_definitions ?_)
    · obtain h | ⟨σ, -, h⟩ := Stage.after_fails hs
      · exact .inl h
      · cases h
    · obtain ⟨τ, hτ, h⟩ := Stage.after_goesOn hs
      cases h
      exact .inr ⟨σ, hτ, (hbody _ rfl).append _⟩

theorem FailsFirst.condition (hb : context.FailsFirst enter tal kinds body) :
    context.FailsFirst enter tal (.condition :: kinds)
      (tal.condition?.elim body fun test => [.condition test body]) := by
  cases hd : tal.condition? with
  | none => exact hb.absent fun σ => by simp only [Tal.stage, hd]
  | some test =>
    refine hb.cons (fun s fault hs => ?_) fun s σ fault hs hbody => ?_
    all_goals simp only [Tal.stage, hd] at hs
    · obtain h | ⟨v, -, h⟩ := Stage.after_fails hs
      · have hread : (Run.readScope (context.value · test)).run s = .failed fault s := Run.run_read_error h
        exact fails_cons (Run.run_bind_failed hread)
      · split at h <;> cases h
    · obtain ⟨v, hv, h⟩ := Stage.after_goesOn hs
      have hread : (Run.readScope (context.value · test)).run s = .done v s := Run.run_read_ok hv
      split at h
      · next ht =>
        cases h
        obtain ⟨t, ht'⟩ := hbody s rfl
        refine fails_cons (t := t) ?_
        rw [operation, Run.run_bind_done hread, if_pos ht, ht']
      · cases h

theorem FailsFirst.loop (hb : context.FailsFirst enter tal kinds body) :
    context.FailsFirst enter tal (.loop :: kinds)
      (tal.loop?.elim body fun (name, items) => [.repeat name items body]) := by
  cases hd : tal.loop? with
  | none => exact hb.absent fun σ => by simp only [Tal.stage, hd]
  | some l =>
    obtain ⟨name, items⟩ := l
    refine hb.cons (fun s fault hs => ?_) fun s σ fault hs hbody => ?_
    all_goals simp only [Tal.stage, hd] at hs
    · obtain h | ⟨v, -, h⟩ := Stage.after_fails hs
      · have hread : (Run.readScope (context.loopItems · items)).run s = .failed fault s := Run.run_read_error h
        exact fails_cons (Run.run_bind_failed hread)
      · unfold Tal.loopStage at h
        split at h <;> cases h
    · obtain ⟨found, hfound, h⟩ := Stage.after_goesOn hs
      have hread : (Run.readScope (context.loopItems · items)).run s = .done found s := Run.run_read_ok hfound
      unfold Tal.loopStage at h
      split at h
      · cases h
        obtain ⟨t, ht⟩ := hbody s rfl
        exact fails_cons (t := t) ((Run.run_bind_done hread).trans ht)
      · cases h
      · cases h
        obtain ⟨t, ht⟩ := hbody (s.withScope (itemScope name _ _ 0 _ s.scope.push)) rfl
        refine fails_cons (t := t) ((Run.run_bind_done hread).trans ?_)
        refine (Run.run_bind_done rfl).trans (Run.run_inFrame_failed ?_)
        exact (Run.run_bind_done rfl).trans (Run.run_bind_failed ht)

theorem fails_emit {value : LocatedExpression} {asMarkup : Bool} {fallback ops : Block}
    (h : context.value s.scope value = .error fault) :
    context.Fails enter (.emit value asMarkup fallback :: ops) s fault := by
  have hread : (Run.readScope (context.value · value)).run s = .failed fault s := Run.run_read_error h
  exact fails_cons (Run.run_bind_failed hread)

theorem FailsFirst.replace (hb : context.FailsFirst enter tal kinds body) :
    context.FailsFirst enter tal (.replace :: kinds)
      (tal.replacement?.elim body fun (asMarkup, e) => [.emit e asMarkup body]) := by
  cases hd : tal.replacement? with
  | none => exact hb.absent fun σ => by simp only [Tal.stage, Tal.contentStage, hd]
  | some r =>
    obtain ⟨asMarkup, e⟩ := r
    refine hb.cons (fun s fault hs => ?_) fun s σ fault hs hbody => ?_
    all_goals simp only [Tal.stage, Tal.contentStage, hd] at hs
    · obtain h | ⟨v, -, h⟩ := Stage.after_fails hs
      · exact fails_emit h
      · split at h <;> cases h
    · obtain ⟨v, hv, h⟩ := Stage.after_goesOn hs
      have hread : (Run.readScope (context.value · e)).run s = .done v s := Run.run_read_ok hv
      split at h
      · next hdefault =>
        cases h
        obtain ⟨t, ht⟩ := hbody s rfl
        refine fails_cons (t := t) ?_
        rw [operation, Run.run_bind_done hread, if_pos hdefault, ht]
      · cases h

/-! ### Tags -/

/-- A tag with something to be decided is an operation of its own. -/
theorem wrap_eq_element {tag : TagPlan} (ho : tag.omission ≠ .always)
    (h : tag.omission ≠ .never ∨ tag.computed ≠ []) : tag.wrap body = [.element tag body] := by
  unfold TagPlan.wrap
  split
  · next h' => exact absurd h' ho
  · next h₁ h₂ =>
    obtain h | h := h
    · exact absurd h₁ h
    · exact absurd h₂ h
  · rfl

/-- The value of the content comes first behind the start tag. -/
theorem wrap_emit_cases (tag : TagPlan) (value : LocatedExpression) (asMarkup : Bool) (children : Block) :
    (tag.wrap [.emit value asMarkup children] = [.emit value asMarkup children]) ∨
      (∃ text back, tag.wrap [.emit value asMarkup children] =
        .literal text :: .emit value asMarkup children :: back) ∨
      tag.wrap [.emit value asMarkup children] = [.element tag [.emit value asMarkup children]] := by
  unfold TagPlan.wrap
  split
  · exact .inl rfl
  · refine .inr (.inl ⟨tag.staticStart, ?_⟩)
    have hstart : tag.staticStart.isEmpty = false := by
      simp [TagPlan.staticStart]
    cases tag.closing with
    | none => exact ⟨[], by simp [Block.ofOperations, Block.push, hstart]⟩
    | some closing =>
      by_cases hc : closing.isEmpty
      · exact ⟨[], by simp [Block.ofOperations, Block.push, hstart, hc]⟩
      · exact ⟨[.literal closing], by simp [Block.ofOperations, Block.push, hstart, hc]⟩
  · exact .inr (.inr rfl)

theorem ne_of_omits {scope : Scope} {tag : TagPlan} (h : context.omits scope tag.omission = .error fault) :
    tag.omission ≠ .always ∧ tag.omission ≠ .never := by
  cases ho : tag.omission with
  | never => rw [ho] at h; cases h
  | always => rw [ho] at h; cases h
  | when e => exact ⟨nofun, nofun⟩

theorem fails_wrap_of_omits {tag : TagPlan} (h : context.omits s.scope tag.omission = .error fault) :
    context.Fails enter (tag.wrap body) s fault := by
  rw [wrap_eq_element (ne_of_omits h).1 (.inl (ne_of_omits h).2)]
  have hread : (Run.readScope (context.omits · tag.omission)).run s = .failed fault s := Run.run_read_error h
  exact fails_cons (Run.run_bind_failed hread)

theorem fails_wrap_of_attributes {tag : TagPlan} (ho : context.omits s.scope tag.omission = .ok false)
    (h : context.attributeValues s.scope tag.computed = .error fault) :
    context.Fails enter (tag.wrap body) s fault := by
  have hne : tag.omission ≠ .always := fun he => by rw [he] at ho; cases ho
  have hcomputed : tag.computed ≠ [] := fun he => by rw [he] at h; cases h
  rw [wrap_eq_element hne (.inr hcomputed)]
  have hread : (Run.readScope (context.omits · tag.omission)).run s = .done false s := Run.run_read_ok ho
  have hstart : (Run.readScope (context.startTag · tag)).run s = .failed fault s :=
    Run.run_read_error ((TagPlan.startTag_eq_map ..).trans (by rw [h]; rfl))
  refine fails_cons (t := s) ((Run.run_bind_done hread).trans ?_)
  exact Run.run_bind_failed hstart

theorem fails_wrap_of_content {tag : TagPlan} {value : LocatedExpression} {asMarkup omitted : Bool}
    {children : Block} (ho : context.omits s.scope tag.omission = .ok omitted)
    (ha : omitted = false → ∃ vs, context.attributeValues s.scope tag.computed = .ok vs)
    (h : context.value s.scope value = .error fault) :
    context.Fails enter (tag.wrap [.emit value asMarkup children]) s fault := by
  obtain hw | ⟨text, back, hw⟩ | hw := wrap_emit_cases tag value asMarkup children
  all_goals rw [hw]
  · exact fails_emit h
  · exact .cons (t := s.write text) rfl (fails_emit h)
  · have hread : (Run.readScope (context.omits · tag.omission)).run s = .done omitted s := Run.run_read_ok ho
    cases omitted with
    | true =>
      obtain ⟨t, ht⟩ : context.Fails enter [.emit value asMarkup children] s fault := fails_emit h
      exact fails_cons (t := t) ((Run.run_bind_done hread).trans ht)
    | false =>
      obtain ⟨vs, hvs⟩ := ha rfl
      have hstart : (Run.readScope (context.startTag · tag)).run s =
          .done (tag.startTag context.format (tag.valuesOf vs)) s :=
        Run.run_read_ok ((TagPlan.startTag_eq_map ..).trans (by rw [hvs]; rfl))
      obtain ⟨t, ht⟩ : context.Fails enter [.emit value asMarkup children]
          (s.write (tag.startTag context.format (tag.valuesOf vs))) fault := fails_emit h
      refine fails_cons (t := t) ((Run.run_bind_done hread).trans ?_)
      refine (Run.run_bind_done hstart).trans ((Run.run_bind_done rfl).trans ?_)
      exact Run.run_bind_failed ht

/-- The tags are decided on and written before the content is evaluated. -/
theorem failsFirst_wrap {tag : TagPlan} (ho : tag.omission = tal.omission) (hc : tag.computed = tal.computed)
    (children : Block) :
    context.FailsFirst enter tal [.omitTag, .attributes, .content]
      (tag.wrap (tal.content?.elim children fun (asMarkup, e) => [.emit e asMarkup children])) := by
  intro s kind fault h
  obtain h | ⟨σ, hs, h⟩ := Tal.firstFault?_cons h
  · simp only [Tal.stage, ← ho] at h
    obtain h | ⟨_, -, h⟩ := Stage.after_fails h
    · exact fails_wrap_of_omits h
    · cases h
  simp only [Tal.stage, ← ho] at hs
  obtain ⟨omitted, homits, hs⟩ := Stage.after_goesOn hs
  cases hs
  have hattributes : tal.stage context s.scope .attributes =
      if omitted then .goesOn s.scope
      else .after (context.attributeValues s.scope tag.computed) fun _ => .goesOn s.scope := by
    simp only [Tal.stage, ← ho, hc, homits]
    cases omitted <;> rfl
  obtain h | ⟨σ, hs, h⟩ := Tal.firstFault?_cons h
  · rw [hattributes] at h
    cases omitted with
    | true => cases h
    | false =>
      obtain h | ⟨_, -, h⟩ := Stage.after_fails h
      · exact fails_wrap_of_attributes homits h
      · cases h
  have hgoes : σ = s.scope ∧
      (omitted = false → ∃ vs, context.attributeValues s.scope tag.computed = .ok vs) := by
    rw [hattributes] at hs
    cases omitted with
    | true =>
      cases hs
      exact ⟨rfl, nofun⟩
    | false =>
      obtain ⟨vs, hvs, hs⟩ := Stage.after_goesOn hs
      cases hs
      exact ⟨rfl, fun _ => ⟨vs, hvs⟩⟩
  obtain ⟨rfl, hvs⟩ := hgoes
  obtain h | ⟨σ, -, h⟩ := Tal.firstFault?_cons h
  · cases hcontent : tal.content? with
    | none =>
      simp only [Tal.stage, Tal.contentStage, hcontent] at h
      cases h
    | some r =>
      simp only [Tal.stage, Tal.contentStage, hcontent] at h
      obtain h | ⟨v, -, h⟩ := Stage.after_fails h
      · exact fails_wrap_of_content homits hvs h
      · split at h <;> cases h
  · cases h

end RenderContext

/-! ### Elements -/

/-- The block with the element's definitions, condition and repetition around it. -/
def Tal.around (tal : Tal) (core : Block) : Block :=
  let block := tal.loop?.elim core fun (name, items) => [.repeat name items core]
  let block := tal.condition?.elim block fun test => [.condition test block]
  tal.definitions?.elim block (DirectiveSet.inScope · block)

namespace RenderContext

variable {context : RenderContext} {enter : Block → Run RenderState Unit}

theorem FailsFirst.around {tal : Tal} {kinds : List TalKind} {core : Block}
    (h : context.FailsFirst enter tal kinds core) :
    context.FailsFirst enter tal (.define :: .condition :: .loop :: kinds) (tal.around core) :=
  h.loop.condition.define

end RenderContext

namespace StartTag

variable {context : RenderContext} {enter : Block → Run RenderState Unit} {start : StartTag} {set : DirectiveSet}

theorem said?_eq {α : Type} (h : DirectiveSet.ofTag start = .ok set) (kind : TalKind)
    (parse : String → Location → Except CompileProblem α) : start.said? kind parse = set.said? kind parse := by
  rw [said?, h]
  rfl

theorem tal_eq (h : DirectiveSet.ofTag start = .ok set) : start.tal = {
    handler? := set.said? .onError Directive.handler
    definitions? := set.said? .define Directive.definitions
    condition? := set.said? .condition fun argument => Directive.expression argument.toList
    loop? := set.said? .loop Directive.loop
    replacement? := set.said? .replace Directive.content
    content? := set.said? .content Directive.content
    computed := (set.said? .attributes Directive.computedAttributes).getD []
    omission := if start.isDirective then .always else (set.said? .omitTag Directive.omission).getD .never } := by
  simp only [tal, said?_eq h]

/-- Nothing fails on an element without directives. -/
theorem failsFirst_of_isPlain (h : DirectiveSet.ofTag start = .ok set) (hp : start.isPlain set) (block : Block) :
    context.FailsFirst enter start.tal [.replace, .omitTag, .attributes, .content] block := by
  simp only [isPlain, DirectiveSet.isEmpty, Bool.and_eq_true, List.isEmpty_iff, Bool.not_eq_true'] at hp
  obtain ⟨⟨⟨htal, -⟩, -⟩, hdirective⟩ := hp
  have hsaid {α : Type} (kind : TalKind) (parse : String → Location → Except CompileProblem α) :
      start.said? kind parse = none := by
    rw [said?_eq h, DirectiveSet.said?_none]
    rw [DirectiveSet.tal?, htal]
    rfl
  have homission : start.tal.omission = .never := by
    simp only [tal, hdirective, hsaid]
    rfl
  have hcomputed : start.tal.computed = [] := by
    simp only [tal, hsaid]
    rfl
  have hreplacement : start.tal.replacement? = none := hsaid ..
  have hcontent : start.tal.content? = none := hsaid ..
  refine .absent (.absent (.absent (.absent RenderContext.failsFirst_nil ?_) ?_) ?_) ?_
  · intro σ
    simp only [Tal.stage, Tal.contentStage, hcontent]
  · intro σ
    simp only [Tal.stage, homission, hcomputed]
    rfl
  · intro σ
    simp only [Tal.stage, homission]
    rfl
  · intro σ
    simp only [Tal.stage, Tal.contentStage, hreplacement]

theorem core_failsFirst (h : DirectiveSet.ofTag start = .ok set) {closing : Option EndTag} {children core : Block}
    (hc : start.core closing set children = .ok core) :
    context.FailsFirst enter start.tal [.replace, .omitTag, .attributes, .content] core := by
  obtain ⟨hp, -⟩ | ⟨-, tag, htag, hcore⟩ := core_ok hc
  · exact failsFirst_of_isPlain h hp core
  obtain ⟨-, -, hcomputed, homission, -, -⟩ := plan_ok htag
  have ho : tag.omission = start.tal.omission := by
    rw [homission, tal_eq h]
  have hcomputed : tag.computed = start.tal.computed := by
    rw [hcomputed, tal_eq h]
  have hwrap : context.FailsFirst enter _ _ _ := (RenderContext.failsFirst_wrap ho hcomputed children).replace
  have hreplacement : start.tal.replacement? = set.said? .replace Directive.content := said?_eq h ..
  have hcontent : start.tal.content? = set.said? .content Directive.content := said?_eq h ..
  rw [hreplacement, hcontent] at hwrap
  obtain ⟨hnone, rfl⟩ | ⟨d, asMarkup, value, hd, hvalue, rfl⟩ := hcore
  · rwa [(DirectiveSet.said?_of_content?_none hnone).1, (DirectiveSet.said?_of_content?_none hnone).2] at hwrap
  obtain ⟨hk, hr, hn⟩ | ⟨hk, hn, hc⟩ := DirectiveSet.said?_of_content? h hd hvalue
  · rw [if_pos hk]
    rwa [hr, hn] at hwrap
  · rw [if_neg hk]
    rwa [hn, hc] at hwrap

end StartTag

end MarkupTemplate
