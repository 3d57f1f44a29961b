import MarkupTemplate.Render.Execute

/-!
# Meanings

What a part of a template means, told without the stacks of a running program: in given variables it
gives a text, or fails, and either way leaves variables behind. Output is what a meaning returns, so a
failure has none to take back. The ways in which operations put blocks together
(`condition`, `loop`, `guard` and so on) are stated once, for programs and for trees.

The meaning of a program has no record of the calls under way. A block is read in an `Environment`, which
is nothing for the main template, and for the body of a macro the fills of its call together with the
caller's own environment. A slot looks at the fills of its environment alone; a fill is read in the
environment of the call it stands in.
-/

namespace MarkupTemplate

/-- What a part of a template means: a text or a fault, from the variables before to those behind. -/
abbrev Meaning := Run Scope String

namespace Meaning

/-- The meaning of a text. -/
def text (s : String) : Meaning := pure s

/-- Changes the variables. -/
def change (f : Scope → Scope) : Meaning := do
  Run.modify f
  return ""

/-- One part after another. -/
def append (m n : Meaning) : Meaning := do
  let s ← m
  let t ← n
  return s ++ t

instance : Append Meaning := ⟨append⟩

variable {m n : Meaning} {σ τ : Scope} {s : String} {fault : RenderFault}

theorem run_append_done (h : m.run σ = .done s τ) :
    (m ++ n).run σ = (n.run τ).map (s ++ ·) := by
  show (m >>= _).run σ = _
  rw [Run.run_bind_done h]
  cases hn : n.run τ with
  | done t υ => rw [Run.run_bind_done hn]; rfl
  | failed fault υ => rw [Run.run_bind_failed hn]; rfl
  | exhausted => rw [Run.run_bind_exhausted hn]; rfl

theorem run_append_failed (h : m.run σ = .failed fault τ) : (m ++ n).run σ = .failed fault τ :=
  Run.run_bind_failed h

theorem run_append_exhausted (h : m.run σ = .exhausted) : (m ++ n).run σ = .exhausted :=
  Run.run_bind_exhausted h

theorem append_assoc (l m n : Meaning) : l ++ m ++ n = l ++ (m ++ n) := by
  show append (append l m) n = append l (append m n)
  simp only [append, bind_assoc, pure_bind, String.append_assoc]

@[simp] theorem text_append (s t : String) : text s ++ text t = text (s ++ t) := rfl

@[simp] theorem empty_append (m : Meaning) : text "" ++ m = m := by
  ext σ
  rw [run_append_done (rfl : (text "").run σ = .done "" σ)]
  cases m.run σ <;> simp [Outcome.map]

@[simp] theorem append_empty (m : Meaning) : m ++ text "" = m := by
  show append m (pure "") = m
  simp [append]

/-! ### Parts of templates -/

variable (context : RenderContext)

/-- Content between its tags. -/
def element (tag : TagPlan) (body : Meaning) : Meaning := do
  let omitted ← Run.read (context.omits · tag.omission)
  if omitted then body
  else do
    let start ← Run.read (context.startTag · tag)
    text start ++ body ++ text (tag.closing.getD "")

/-- A part once for each of some items, the first of which has this index. -/
def repeatFrom (name : String) (loops : Fields Value) (length : Nat) (body : Meaning) :
    Nat → List Value → Meaning
  | _, [] => text ""
  | index, item :: items =>
    change (RenderContext.itemScope name loops length index item) ++ body ++
      repeatFrom name loops length body (index + 1) items

/-- A part once for each item of a value, in a frame that `frame` opens around all of them; for `default`
once, as it stands. -/
def loop (frame : Meaning → Meaning) (name : String) (items : LocatedExpression) (body : Meaning) :
    Meaning := do
  let found ← Run.read (context.loopItems · items)
  match found with
  | none => body
  | some values => do
    let σ ← Run.get
    frame (repeatFrom name (RenderContext.outerLoops σ) values.length body 0 values)

/-- A value; for `default` a part in its place. -/
def valueOr (e : LocatedExpression) (asMarkup : Bool) (m : Meaning) : Meaning := do
  let v ← Run.read (context.value · e)
  if v.isDefault then m else text (context.contentText v asMarkup)

/-- A part if a test holds. -/
def condition (test : LocatedExpression) (m : Meaning) : Meaning := do
  let v ← Run.read (context.value · test)
  if v.isTruthy then m else text ""

/-- Binds a variable to the value of an expression. -/
def define (kind : BindingKind) (name : String) (e : LocatedExpression) : Meaning := do
  let scope ← Run.read (context.bind kind name e)
  change fun _ => scope

/-- A part; if it fails and the fault is recoverable, the handler's value in the variables that `leave`
makes of those behind the failure and those before the part. -/
def guard (leave : Scope → Scope → Scope) (handler : LocatedExpression) (asMarkup : Bool)
    (body : Meaning) : Meaning := ⟨fun σ =>
  match body.run σ with
  | .failed fault τ =>
    if fault.isRecoverable then
      (Run.read (context.handlerText handler asMarkup fault)).run (leave σ τ)
    else .failed fault τ
  | outcome => outcome⟩

end Meaning

/-! ### Programs -/

/-- What the slots of a block take. -/
inductive Environment where
  | main
  /-- In the body of a macro: the fills of the call, and where the call stands. -/
  | call (fills : List (String × Block)) (caller : Environment)

namespace Environment

/-- What fills a slot, and the environment it is read in. -/
def fill? : Environment → String → Option (Block × Environment)
  | main, _ => none
  | call fills caller, name => (fills.lookup name).map fun body => (body, caller)

end Environment

namespace Meaning

variable (context : RenderContext)

/-- A part in a new innermost frame, which a failure leaves behind. -/
def inFrame (m : Meaning) : Meaning :=
  change Scope.push ++ m ++ change Scope.pop

/-- The variables of a handler: the frames of a failed part are gone. -/
def leaveFrames (before behind : Scope) : Scope :=
  behind.truncate before.depth

mutual

/-- The meaning of an operation; `enter` gives the meaning of macros and fills. -/
def operation (enter : Environment → Block → Meaning) (env : Environment) : Operation → Meaning
  | .literal s => text s
  | .emit e asMarkup fallback => valueOr context e asMarkup (operations enter env fallback)
  | .pushScope => change Scope.push
  | .popScope => change Scope.pop
  | .define kind name e => define context kind name e
  | .condition test body => condition context test (operations enter env body)
  | .repeat name items body => loop context inFrame name items (operations enter env body)
  | .element tag body => element context tag (operations enter env body)
  | .onError body handler asMarkup =>
    guard context leaveFrames handler asMarkup (operations enter env body)
  | .callMacro callee fills arguments location => do
    let (m, bindings) ← Run.read (context.prepareCall · callee arguments location)
    inFrame (change (RenderContext.defineAll bindings) ++ enter (.call fills env) m.body)
  | .slot name fallback =>
    match env.fill? name with
    | none => operations enter env fallback
    | some (body, caller) => enter caller body

/-- The meaning of operations in order. -/
def operations (enter : Environment → Block → Meaning) (env : Environment) :
    List Operation → Meaning
  | [] => text ""
  | op :: ops => operation enter env op ++ operations enter env ops

end

/-- The meaning of a block in which at most `bound` macros and fills stand inside each other. -/
def block : Nat → Environment → Block → Meaning
  | 0 => operations context fun _ _ => Run.exhaust
  | bound + 1 => operations context (block bound)

end Meaning

end MarkupTemplate
