import MarkupTemplate.Proofs.Render.Bounds
import MarkupTemplate.Render.Template

/-!
# Macros as closures

A running program keeps a record of each macro call under way and the place of the one whose fills the
slots take; its meaning has environments instead. `operation_agrees`: the running program does what its
meaning says, if the records that can be reached from the current one spell the environment (`Spells`).
`Template.renderWithin_eq_closures` is the same for templates.
-/

namespace MarkupTemplate

/-! ### Fills do not leak -/

/-- Slots take the same in both environments. -/
inductive Environment.Alike : Environment → Environment → Prop
  | unfilled {env other : Environment} (he : ∀ name, env.fill? name = none)
      (ho : ∀ name, other.fill? name = none) : Alike env other
  | call {env other : Environment} (fills : List (String × Block)) (h : Alike env other) :
      Alike (.call fills env) (.call fills other)

namespace Meaning

variable {context : RenderContext} {enter : Environment → Block → Meaning}
  {env other : Environment}

theorem fill_alike (henter : ∀ {env other} b, env.Alike other → enter env b = enter other b)
    (h : env.Alike other) (name : String) :
    (env.fill? name).map (fun fill => enter fill.2 fill.1) =
      (other.fill? name).map (fun fill => enter fill.2 fill.1) := by
  cases h with
  | unfilled he ho => rw [he, ho]
  | call fills h =>
    simp only [Environment.fill?, Option.map_map]
    congr 1
    funext body
    exact henter body h

mutual

theorem operation_alike (henter : ∀ {env other} b, env.Alike other → enter env b = enter other b)
    (h : env.Alike other) : ∀ op, operation context enter env op = operation context enter other op
  | .literal _ => rfl
  | .pushScope => rfl
  | .popScope => rfl
  | .define .. => rfl
  | .emit _ _ fallback => by simp only [operation, operations_alike henter h fallback]
  | .condition _ body => by simp only [operation, operations_alike henter h body]
  | .repeat _ _ body => by simp only [operation, operations_alike henter h body]
  | .element _ body => by simp only [operation, operations_alike henter h body]
  | .onError body _ _ => by simp only [operation, operations_alike henter h body]
  | .callMacro _ fills _ _ => by simp only [operation, henter _ (h.call fills)]
  | .slot name fallback => by
    have hf := fill_alike henter h name
    simp only [operation, operations_alike henter h fallback]
    cases he : env.fill? name <;> cases ho : other.fill? name <;> simp_all

theorem operations_alike (henter : ∀ {env other} b, env.Alike other → enter env b = enter other b)
    (h : env.Alike other) :
    ∀ ops, operations context enter env ops = operations context enter other ops
  | [] => rfl
  | op :: ops => by rw [operations, operation_alike henter h op, operations_alike henter h ops]; rfl

end

theorem block_alike (context : RenderContext) : ∀ (bound : Nat) {env other : Environment} (b : Block),
    env.Alike other → block context bound env b = block context bound other b
  | 0, _, _, b, h => operations_alike (fun _ _ => rfl) h b
  | bound + 1, _, _, b, h => operations_alike (fun b h => block_alike context bound b h) h b

end Meaning

/-! ### Records and environments -/

/-- The records of calls, followed from one of them, spell an environment. -/
inductive Spells (calls : Array Invocation) : Option Nat → Environment → Prop
  | main : Spells calls none .main
  | call {i : Nat} {call : Invocation} {caller : Environment} (hi : calls[i]? = some call)
      (hc : Spells calls call.caller caller) : Spells calls (some i) (.call call.fills caller)

namespace Spells

variable {calls : Array Invocation} {current : Option Nat} {env : Environment}

theorem push (h : Spells calls current env) (call : Invocation) :
    Spells (calls.push call) current env := by
  induction h with
  | main => exact .main
  | @call i found caller hi _ ih =>
    refine .call ?_ ih
    have hlt := (Array.getElem?_eq_some_iff.1 hi).1
    rwa [Array.getElem?_push_lt hlt, ← Array.getElem?_eq_getElem hlt]

theorem enter {s : RenderState} (h : Spells s.invocations s.current env)
    (fills : List (String × Block)) :
    Spells (s.enter fills).invocations (s.enter fills).current (.call fills env) :=
  have hi : (s.enter fills).invocations[s.invocations.size]? = some ⟨fills, s.current⟩ := by
    simp [RenderState.enter]
  .call hi (h.push _)

theorem fill?_none {s : RenderState} {name : String} (h : Spells s.invocations s.current env)
    (hf : env.fill? name = none) : s.fill? name = none := by
  unfold RenderState.fill?
  cases hc : s.current with
  | none => rfl
  | some i =>
    rw [hc] at h
    cases h with
    | call hi _ =>
      have hl := Option.map_eq_none_iff.1 hf
      simp [hi, hl]

theorem fill?_some {s : RenderState} {name : String} {body : Block} {caller : Environment}
    (h : Spells s.invocations s.current env) (hf : env.fill? name = some (body, caller)) :
    ∃ i, s.fill? name = some (body, i) ∧ Spells s.invocations i caller := by
  unfold RenderState.fill?
  cases hc : s.current with
  | none => rw [hc] at h; cases h; cases hf
  | some i =>
    rw [hc] at h
    cases h with
    | @call _ call _ hi hs =>
      obtain ⟨b, hl, hp⟩ := Option.map_eq_some_iff.1 hf
      cases hp
      exact ⟨call.caller, by simp [hi, hl], hs⟩

end Spells

/-! ### Programs do what they mean -/

/-- What a run from `s` does is what a meaning says: a result leaves the calls as they are and adds the
text to the output, a fault adds to both. -/
inductive Simulates (s : RenderState) : Outcome RenderState Unit → Outcome Scope String → Prop
  | done {t : RenderState} (pieces : List String) (hi : t.invocations = s.invocations)
      (hc : t.current = s.current) (hw : t.written = pieces ++ s.written) :
      Simulates s (.done () t) (.done (String.join pieces.reverse) t.scope)
  | failed {fault : RenderFault} {t : RenderState}
      (hi : ∃ more, t.invocations = s.invocations ++ more) (hw : s.written <:+ t.written) :
      Simulates s (.failed fault t) (.failed fault t.scope)
  | exhausted : Simulates s .exhausted .exhausted

/-- What is done behind a part adds to what the part has done. -/
theorem Simulates.after {s t : RenderState} {pieces : List String}
    {o : Outcome RenderState Unit} {p : Outcome Scope String} (hi : t.invocations = s.invocations)
    (hc : t.current = s.current) (hw : t.written = pieces ++ s.written) (h : Simulates t o p) :
    Simulates s o (p.map (String.join pieces.reverse ++ ·)) := by
  cases h with
  | @done u more hi' hc' hw' =>
    have h := Simulates.done (s := s) (t := u) (more ++ pieces) (hi'.trans hi)
      (hc'.trans hc) (by rw [hw', hw, List.append_assoc])
    simpa [Outcome.map, String.join_append] using h
  | failed hi' hw' =>
    exact .failed (hi ▸ hi') (List.IsSuffix.trans ⟨pieces, hw.symm⟩ hw')
  | exhausted => exact .exhausted

theorem Simulates.of_withScope {s : RenderState} {σ : Scope} {o : Outcome RenderState Unit}
    {p : Outcome Scope String} (h : Simulates (s.withScope σ) o p) : Simulates s o p := by
  cases h with
  | done pieces hi hc hw => exact .done pieces hi hc hw
  | failed hi hw => exact .failed hi hw
  | exhausted => exact .exhausted

/-- A run does what a meaning says wherever the records spell an environment. -/
def Agrees (env : Environment) (x : Run RenderState Unit) (m : Meaning) : Prop :=
  ∀ s, Spells s.invocations s.current env → Simulates s (x.run s) (m.run s.scope)

namespace Agrees

variable {env : Environment} {x y : Run RenderState Unit} {m n : Meaning}

theorem nothing : Agrees env (pure ()) (Meaning.text "") := fun s _ =>
  Simulates.done (s := s) (t := s) [] rfl rfl rfl

theorem write (piece : String) : Agrees env (Run.write piece) (Meaning.text piece) := fun s _ => by
  have h := Simulates.done (s := s) (t := s.write piece) [piece] rfl rfl rfl
  rw [List.reverse_singleton, String.join_cons, String.join_nil, String.append_empty] at h
  exact h

theorem change (f : Scope → Scope) : Agrees env (Run.modifyScope f) (Meaning.change f) := fun s _ =>
  Simulates.done (s := s) (t := s.withScope (f s.scope)) [] rfl rfl rfl

theorem read {α : Type} {f : Scope → Except RenderFault α} {x : α → Run RenderState Unit}
    {m : α → Meaning} (h : ∀ a, Agrees env (x a) (m a)) :
    Agrees env (Run.readScope f >>= x) (Run.read f >>= m) := fun s hs => by
  cases hf : f s.scope with
  | ok a =>
    have hr : (Run.readScope f).run s = .done a s := Run.run_read_ok hf
    rw [Run.run_bind_done hr, Run.run_bind_done (Run.run_read_ok hf)]
    exact h a s hs
  | error fault =>
    have hr : (Run.readScope f).run s = .failed fault s := Run.run_read_error hf
    rw [Run.run_bind_failed hr, Run.run_bind_failed (Run.run_read_error hf)]
    exact .failed ⟨#[], by simp⟩ (List.suffix_refl _)

theorem append (hx : Agrees env x m) (hy : Agrees env y n) :
    Agrees env (do x; y) (m ++ n) := fun s hs => by
  have h := hx s hs
  generalize ho : x.run s = o at h
  generalize hp : m.run s.scope = p at h
  cases h with
  | @done t pieces hi hc hw =>
    rw [Run.run_bind_done ho, Meaning.run_append_done hp]
    exact .after hi hc hw (hy t (by rwa [hi, hc]))
  | failed hi hw =>
    rw [Run.run_bind_failed ho, Meaning.run_append_failed hp]
    exact .failed hi hw
  | exhausted =>
    rw [Run.run_bind_exhausted ho, Meaning.run_append_exhausted hp]
    exact .exhausted

theorem inFrame (h : Agrees env x m) : Agrees env (Run.inFrame x) (Meaning.inFrame m) := by
  have h := ((change Scope.push).append h).append (change Scope.pop)
  rwa [bind_assoc] at h

variable (context : RenderContext)

theorem element (tag : TagPlan) (h : Agrees env x m) :
    Agrees env (context.element tag x) (Meaning.element context tag m) := by
  refine read fun omitted => ?_
  cases omitted with
  | true => exact h
  | false =>
    refine read fun start => ?_
    have h := ((write start).append h).append (write (tag.closing.getD ""))
    rwa [bind_assoc] at h

theorem repeatFrom (name : String) (loops : Fields Value) (length : Nat) (h : Agrees env x m) :
    ∀ (items : List Value) (index : Nat), Agrees env
      (RenderContext.repeatFrom name loops length x index items)
      (Meaning.repeatFrom name loops length m index items)
  | [], _ => nothing
  | item :: items, index => by
    have h := ((change (RenderContext.itemScope name loops length index item)).append h).append
      (repeatFrom name loops length h items (index + 1))
    rwa [bind_assoc] at h

theorem guard (handler : LocatedExpression) (asMarkup : Bool) (h : Agrees env x m) :
    Agrees env (context.guard handler asMarkup x)
      (Meaning.guard context Meaning.leaveFrames handler asMarkup m) := fun s hs => by
  have h := h s hs
  simp only [RenderContext.guard, Meaning.guard]
  generalize x.run s = o at h
  generalize m.run s.scope = p at h
  cases h with
  | done pieces hi hc hw => exact .done pieces hi hc hw
  | exhausted => exact .exhausted
  | @failed fault t hi hw =>
    simp only
    split
    · -- what is left of the failed part is the variables without its frames
      have hb : (Run.modify (RenderState.backTo · s.mark)).run t =
          .done () (s.withScope (t.scope.truncate s.scope.depth)) := by
        rw [Run.run_modify, RenderState.backTo_mark hi hw]
      rw [RenderContext.recover, Run.run_bind_done hb]
      cases hh : context.handlerText handler asMarkup fault (t.scope.truncate s.scope.depth) with
      | ok text =>
        have hr : (Run.readScope (context.handlerText handler asMarkup fault)).run
            (s.withScope (t.scope.truncate s.scope.depth)) = .done text _ := Run.run_read_ok hh
        rw [Run.run_bind_done hr, Meaning.leaveFrames, Run.run_read_ok hh]
        exact .of_withScope (write text _ hs)
      | error fault =>
        have hr : (Run.readScope (context.handlerText handler asMarkup _)).run
            (s.withScope (t.scope.truncate s.scope.depth)) = .failed fault _ := Run.run_read_error hh
        rw [Run.run_bind_failed hr, Meaning.leaveFrames, Run.run_read_error hh]
        exact .failed (t := s.withScope _) ⟨#[], by simp [RenderState.withScope]⟩ (List.suffix_refl _)
    · exact .failed hi hw

theorem slot {enter : Block → Run RenderState Unit} {enter' : Environment → Block → Meaning}
    (henter : ∀ env b, Agrees env (enter b) (enter' env b)) (name : String) (h : Agrees env x m) :
    Agrees env (RenderContext.slot enter name x)
      (match env.fill? name with
        | none => m
        | some (body, caller) => enter' caller body) := fun s hs => by
  rw [RenderContext.slot, Run.run_bind_done (Run.run_get s)]
  cases hf : env.fill? name with
  | none =>
    rw [hs.fill?_none hf]
    exact h s hs
  | some fill =>
    obtain ⟨body, caller⟩ := fill
    obtain ⟨i, hi, hc⟩ := hs.fill?_some hf
    rw [hi]
    have h := henter caller body (s.within i) hc
    change Simulates s _ ((enter' caller body).run (s.within i).scope)
    generalize ho : (enter body).run (s.within i) = o at h
    generalize (enter' caller body).run (s.within i).scope = p at h ⊢
    cases h with
    | done pieces hi hc hw =>
      rw [Run.run_bind_done (Run.run_modify _ s), Run.run_bind_done ho, Run.run_modify]
      exact .done pieces hi rfl hw
    | failed hi hw =>
      rw [Run.run_bind_done (Run.run_modify _ s), Run.run_bind_failed ho]
      exact .failed hi hw
    | exhausted =>
      rw [Run.run_bind_done (Run.run_modify _ s), Run.run_bind_exhausted ho]
      exact .exhausted

theorem call {enter : Block → Run RenderState Unit} {enter' : Environment → Block → Meaning}
    (henter : ∀ env b, Agrees env (enter b) (enter' env b)) (callee : MacroTarget)
    (fills : List (String × Block)) (arguments : List (String × Argument)) (location : Location) :
    Agrees env (context.call enter callee fills arguments location) (do
      let (m, bindings) ← Run.read (context.prepareCall · callee arguments location)
      Meaning.inFrame
        (Meaning.change (RenderContext.defineAll bindings) ++ enter' (.call fills env) m.body)) := by
  refine read fun prepared => fun s hs => ?_
  obtain ⟨m, bindings⟩ := prepared
  have h := inFrame ((change (RenderContext.defineAll bindings)).append
    (henter (.call fills env) m.body)) (s.enter fills) (hs.enter fills)
  rw [Run.run_bind_done (Run.run_get s), Run.run_bind_done (Run.run_modify _ s)]
  change Simulates s _ ((Meaning.inFrame _).run (s.enter fills).scope)
  generalize ho : (Run.inFrame _).run (s.enter fills) = o at h
  generalize (Meaning.inFrame _).run (s.enter fills).scope = p at h ⊢
  cases h with
  | done pieces hi hc hw =>
    rw [Run.run_bind_done ho, Run.run_modify]
    exact .done (t := RenderState.leave _ s.current) pieces
      (by simp [RenderState.leave, RenderState.enter, hi]) rfl hw
  | failed hi hw =>
    rw [Run.run_bind_failed ho]
    obtain ⟨more, hi⟩ := hi
    exact .failed ⟨#[⟨fills, s.current⟩] ++ more, by simp [hi, RenderState.enter]⟩ hw
  | exhausted =>
    rw [Run.run_bind_exhausted ho]
    exact .exhausted

end Agrees

section

variable {context : RenderContext} {enter : Block → Run RenderState Unit}
  {enter' : Environment → Block → Meaning}

mutual

theorem operation_agrees (henter : ∀ env b, Agrees env (enter b) (enter' env b)) (env : Environment) :
    ∀ op, Agrees env (context.operation enter op) (Meaning.operation context enter' env op)
  | .literal s => .write s
  | .emit e asMarkup fallback => .read fun v => by
    split
    · exact operations_agree henter env fallback
    · exact .write _
  | .pushScope => .change _
  | .popScope => .change _
  | .define kind name e => .read fun σ => .change _
  | .condition test body => .read fun v => by
    split
    · exact operations_agree henter env body
    · exact .nothing
  | .repeat name items body => .read fun found => by
    have hb := operations_agree henter env body
    cases found with
    | none => exact hb
    | some values =>
      intro s hs
      rw [Run.run_bind_done (Run.run_get s), Run.run_bind_done (Run.run_get s.scope)]
      exact (Agrees.repeatFrom name _ _ hb values 0).inFrame s hs
  | .element tag body => .element context tag (operations_agree henter env body)
  | .onError body handler asMarkup =>
    .guard context handler asMarkup (operations_agree henter env body)
  | .callMacro callee fills arguments location =>
    .call context henter callee fills arguments location
  | .slot name fallback => .slot henter name (operations_agree henter env fallback)

theorem operations_agree (henter : ∀ env b, Agrees env (enter b) (enter' env b)) (env : Environment) :
    ∀ ops, Agrees env (context.operations enter ops) (Meaning.operations context enter' env ops)
  | [] => .nothing
  | op :: ops => (operation_agrees henter env op).append (operations_agree henter env ops)

end

end

theorem block_agrees (context : RenderContext) : ∀ (bound : Nat) (env : Environment) (b : Block),
    Agrees env (context.runBlock bound b) (Meaning.block context bound env b)
  | 0, env, b => operations_agree (fun _ _ _ _ => .exhausted) env b
  | bound + 1, env, b => operations_agree (fun env b => block_agrees context bound env b) env b

/-! ### Templates -/

namespace Template

/-- The text of a template by its meaning, if at most `bound` macros and fills stand inside each
other. -/
def closuresWithin (template : Template) (bound : Nat) (format : ValueFormatter)
    (globals : Frame) : Option (Except RenderFault String) :=
  match template.rootFrame globals with
  | .error fault => some (.error fault)
  | .ok frame =>
    let body := template.program.body
    match (Meaning.block (template.context format) bound .main body).run (.ofGlobals frame) with
    | .done text _ => some (.ok text)
    | .failed fault _ => some (.error fault)
    | .exhausted => none

variable (template : Template) (format : ValueFormatter) (globals : Frame)

theorem renderWithin_eq_closures (bound : Nat) :
    template.renderWithin bound format globals = template.closuresWithin bound format globals := by
  unfold renderWithin closuresWithin
  cases template.rootFrame globals with
  | error fault => rfl
  | ok frame =>
    have h := block_agrees (template.context format) bound .main template.program.body
      (.initial (.ofGlobals frame)) .main
    change Simulates _ _ ((Meaning.block _ bound .main _).run (.ofGlobals frame)) at h
    simp only
    generalize (RenderContext.runBlock _ _ _).run _ = o at h ⊢
    generalize (Meaning.block _ _ _ _).run _ = p at h ⊢
    cases h with
    | done pieces hi hc hw => simp only [RenderState.text, hw, RenderState.initial, List.append_nil]
    | failed hi hw => rfl
    | exhausted => rfl

theorem renderWithin_add (bound more : Nat) :
    template.renderWithin bound format globals = none ∨
      template.renderWithin (bound + more) format globals =
        template.renderWithin bound format globals := by
  simp only [renderWithin_eq_closures, closuresWithin]
  cases template.rootFrame globals with
  | error fault => exact .inr rfl
  | ok frame =>
    rcases Meaning.block_below (template.context format) bound more .main template.program.body
      (.ofGlobals frame) with h | h
    · simp only [h, true_or]
    · simp only [h, or_true]

/-- Macros are closures. With records of calls or in environments, a template gives the same text or the
same fault, or none within the same bound; the bound does not decide which. The fills around a call do not
reach the macro called, and all of a fill, its slots too, means what it does where the call stands. -/
theorem calls_are_closures :
    (∀ bound, template.renderWithin bound format globals =
      template.closuresWithin bound format globals) ∧
    (∀ bound more, template.renderWithin bound format globals = none ∨
      template.renderWithin (bound + more) format globals =
        template.renderWithin bound format globals) ∧
    (∀ bound env other body, Meaning.block (template.context format) bound (.call [] env) body =
      Meaning.block (template.context format) bound (.call [] other) body) ∧
    ∀ bound env fills name body fallback,
      Meaning.block (template.context format) (bound + 1) (.call ((name, body) :: fills) env)
        [.slot name fallback] =
      Meaning.block (template.context format) bound env body := by
  refine ⟨template.renderWithin_eq_closures format globals, template.renderWithin_add format globals,
    fun bound env other body => ?_, fun bound env fills name body fallback => ?_⟩
  · exact Meaning.block_alike _ bound body (.unfilled (fun _ => rfl) fun _ => rfl)
  · show Meaning.operation _ _ _ _ ++ Meaning.text "" = _
    rw [Meaning.append_empty]
    simp only [Meaning.operation, Environment.fill?, List.lookup_cons_self, Option.map_some]

end Template

end MarkupTemplate
