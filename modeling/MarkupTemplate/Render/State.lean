import MarkupTemplate.Evaluation.Scope
import MarkupTemplate.Program.Basic
import MarkupTemplate.Render.Fault

/-!
# The state of rendering

A program that runs has variables, the output so far, and a record for each macro call under way, which
holds what the call fills in and which call it was made from. One of the records, or none in the main
template, is the one whose fills the slots take. A mark remembers how far each of them has come, so that
what a failed block has added can be taken back.
-/

namespace MarkupTemplate

/-- A macro call under way. -/
structure Invocation where
  fills : List (String × Block)
  /-- The call whose body made this one; the main template is none. -/
  caller : Option Nat
  deriving Inhabited

/-- The state of a running program. -/
structure RenderState where
  scope : Scope
  /-- The pieces of output, the latest first. -/
  written : List String
  /-- The calls under way, the earliest first. -/
  invocations : Array Invocation
  /-- The call whose fills the slots take. -/
  current : Option Nat
  deriving Inhabited

namespace RenderState

/-- Nothing has run yet. -/
def initial (scope : Scope) : RenderState := ⟨scope, [], #[], none⟩

/-- The output so far. -/
def text (s : RenderState) : String :=
  String.join s.written.reverse

/-- The state with one more piece of output. -/
def write (s : RenderState) (piece : String) : RenderState :=
  { s with written := piece :: s.written }

/-- The state with other variables. -/
def withScope (s : RenderState) (scope : Scope) : RenderState :=
  { s with scope }

/-- The state inside a new call. -/
def enter (s : RenderState) (fills : List (String × Block)) : RenderState :=
  { s with
    invocations := s.invocations.push ⟨fills, s.current⟩
    current := some s.invocations.size }

/-- The state behind the innermost call, which had been made from `caller`. -/
def leave (s : RenderState) (caller : Option Nat) : RenderState :=
  { s with invocations := s.invocations.pop, current := caller }

/-- The state as part of another call. -/
def within (s : RenderState) (call : Option Nat) : RenderState :=
  { s with current := call }

/-- What the current call fills into a slot, and the call that it was made from. -/
def fill? (s : RenderState) (name : String) : Option (Block × Option Nat) := do
  let call ← s.invocations[← s.current]?
  let body ← call.fills.lookup name
  return (body, call.caller)

end RenderState

/-- How far a running program has come. -/
structure RenderMark where
  depth : Nat
  pieces : Nat
  calls : Nat
  current : Option Nat
  deriving DecidableEq, Repr

namespace RenderState

/-- How far a state has come. -/
def mark (s : RenderState) : RenderMark :=
  ⟨s.scope.depth, s.written.length, s.invocations.size, s.current⟩

/-- The state without what has been added since a mark; variables that were bound stay. -/
def backTo (s : RenderState) (m : RenderMark) : RenderState where
  scope := s.scope.truncate m.depth
  written := s.written.drop (s.written.length - m.pieces)
  invocations := s.invocations.take m.calls
  current := m.current

theorem backTo_mark {s t : RenderState} (hi : ∃ more, t.invocations = s.invocations ++ more)
    (hw : s.written <:+ t.written) :
    t.backTo s.mark = s.withScope (t.scope.truncate s.scope.depth) := by
  obtain ⟨more, hi⟩ := hi
  obtain ⟨pieces, hw⟩ := hw
  simp [backTo, mark, withScope, hi, ← hw]

end RenderState

/-- How a run ends: with a result, with a fault, or not within its bounds. A fault keeps the state in
which it came up. -/
inductive Outcome (σ α : Type) where
  | done (a : α) (s : σ)
  | failed (fault : RenderFault) (s : σ)
  | exhausted
  deriving Inhabited

/-- The outcome with another result. -/
def Outcome.map {σ α β : Type} (f : α → β) : Outcome σ α → Outcome σ β
  | done a s => done (f a) s
  | failed fault s => failed fault s
  | exhausted => exhausted

/-- What runs on a state. -/
@[ext]
structure Run (σ α : Type) where
  run : σ → Outcome σ α

namespace Run

variable {σ α β : Type}

/-- A run that does nothing. -/
def pure (a : α) : Run σ α := ⟨fun s => .done a s⟩

/-- One run after another. -/
def bind (x : Run σ α) (f : α → Run σ β) : Run σ β := ⟨fun s =>
  match x.run s with
  | .done a s => (f a).run s
  | .failed fault s => .failed fault s
  | .exhausted => .exhausted⟩

instance : Monad (Run σ) where
  pure := Run.pure
  bind := Run.bind

/-- The state. -/
def get : Run σ σ := ⟨fun s => .done s s⟩

/-- Changes the state. -/
def modify (f : σ → σ) : Run σ Unit := ⟨fun s => .done () (f s)⟩

/-- What can be told from the state alone, or why not. -/
def read (f : σ → Except RenderFault α) : Run σ α := ⟨fun s =>
  match f s with
  | .ok a => .done a s
  | .error fault => .failed fault s⟩

/-- Does not come to an end. -/
def exhaust : Run σ α := ⟨fun _ => .exhausted⟩

@[simp] theorem run_pure (a : α) (s : σ) : (Pure.pure a : Run σ α).run s = .done a s := rfl

@[simp] theorem run_get (s : σ) : (get : Run σ σ).run s = .done s s := rfl

@[simp] theorem run_modify (f : σ → σ) (s : σ) : (modify f).run s = .done () (f s) := rfl

@[simp] theorem run_exhaust (s : σ) : (exhaust : Run σ α).run s = .exhausted := rfl

theorem run_read_ok {f : σ → Except RenderFault α} {s : σ} {a : α} (h : f s = .ok a) :
    (read f).run s = .done a s := by
  simp only [read, h]

theorem run_read_error {f : σ → Except RenderFault α} {s : σ} {fault : RenderFault}
    (h : f s = .error fault) : (read f).run s = .failed fault s := by
  simp only [read, h]

section

variable {x : Run σ α} {f : α → Run σ β} {s t : σ}

theorem run_bind_done {a : α} (h : x.run s = .done a t) : (x >>= f).run s = (f a).run t := by
  show (Run.bind x f).run s = _
  simp only [Run.bind, h]

theorem run_bind_failed {fault : RenderFault} (h : x.run s = .failed fault t) :
    (x >>= f).run s = .failed fault t := by
  show (Run.bind x f).run s = _
  simp only [Run.bind, h]

theorem run_bind_exhausted (h : x.run s = .exhausted) : (x >>= f).run s = .exhausted := by
  show (Run.bind x f).run s = _
  simp only [Run.bind, h]

end

theorem bind_assoc {γ : Type} (x : Run σ α) (f : α → Run σ β) (g : β → Run σ γ) :
    x >>= f >>= g = x >>= fun a => f a >>= g := by
  ext s
  cases h : x.run s with
  | done a t =>
    rw [run_bind_done h]
    show (Run.bind (x >>= f) g).run s = (Run.bind (f a) g).run t
    simp only [Run.bind, run_bind_done h]
  | failed fault t => rw [run_bind_failed (run_bind_failed h), run_bind_failed h]
  | exhausted => rw [run_bind_exhausted (run_bind_exhausted h), run_bind_exhausted h]

instance : LawfulMonad (Run σ) := LawfulMonad.mk' _
  (fun x => by
    ext s
    cases h : x.run s with
    | done a t => exact run_bind_done h
    | failed fault t => exact run_bind_failed h
    | exhausted => exact run_bind_exhausted h)
  (fun _ _ => rfl)
  Run.bind_assoc

/-- Writes a piece of output. -/
def write (piece : String) : Run RenderState Unit := modify (·.write piece)

/-- Changes the variables. -/
def modifyScope (f : Scope → Scope) : Run RenderState Unit :=
  modify fun s => s.withScope (f s.scope)

/-- What can be told from the variables alone, or why not. -/
def readScope (f : Scope → Except RenderFault α) : Run RenderState α :=
  read fun s => f s.scope

/-- Runs in a new innermost frame, which is left only if the run succeeds. -/
def inFrame (x : Run RenderState Unit) : Run RenderState Unit := do
  modifyScope Scope.push
  x
  modifyScope Scope.pop

end Run

end MarkupTemplate
