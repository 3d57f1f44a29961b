import MarkupTemplate.Render.Execute

/-!
# What is executed while a block runs

`Starts`: an operation, executed in some state, starts a block inside it, a macro or a fill. `Executes`: a
block that runs from some state comes to execute an operation, at whatever depth below it. Both carry the
bound that is left for macros and fills inside each other.
-/

namespace MarkupTemplate

namespace RenderContext

variable (context : RenderContext)

/-- How macros and fills are entered where `bound` of them may run inside each other. -/
def enterWithin : Nat → Block → Run RenderState Unit
  | 0 => fun _ => Run.exhaust
  | bound + 1 => context.runBlock bound

theorem runBlock_eq (bound : Nat) (b : Block) :
    context.runBlock bound b = context.operations (context.enterWithin bound) b := by
  cases bound <;> rfl

/-- A repetition of a block that runs through items starts the block in this state. -/
inductive Iterates (name : String) (loops : Fields Value) (length : Nat) (body : Run RenderState Unit) :
    Nat → List Value → RenderState → RenderState → Prop
  | here {index : Nat} {item : Value} {items : List Value} {s : RenderState} :
      Iterates name loops length body index (item :: items) s
        (s.withScope (itemScope name loops length index item s.scope))
  | later {index : Nat} {item : Value} {items : List Value} {s t u : RenderState}
      (h : body.run (s.withScope (itemScope name loops length index item s.scope)) = .done () t)
      (hi : Iterates name loops length body (index + 1) items t u) :
      Iterates name loops length body index (item :: items) s u

/-- An operation, executed in one state, starts a block in another. -/
inductive Starts : Nat → Operation → RenderState → Nat → Block → RenderState → Prop
  | default {n : Nat} {e : LocatedExpression} {asMarkup : Bool} {fallback : Block} {s : RenderState}
      {v : Value} (hv : context.value s.scope e = .ok v) (h : v.isDefault) :
      Starts n (.emit e asMarkup fallback) s n fallback s
  | holds {n : Nat} {test : LocatedExpression} {body : Block} {s : RenderState} {v : Value}
      (hv : context.value s.scope test = .ok v) (h : v.isTruthy) :
      Starts n (.condition test body) s n body s
  | once {n : Nat} {name : String} {items : LocatedExpression} {body : Block} {s : RenderState}
      (h : context.loopItems s.scope items = .ok none) : Starts n (.repeat name items body) s n body s
  | item {n : Nat} {name : String} {items : LocatedExpression} {body : Block} {s t : RenderState}
      {values : List Value} (h : context.loopItems s.scope items = .ok (some values))
      (hi : Iterates name (outerLoops s.scope) values.length (context.runBlock n body) 0 values
        (s.withScope s.scope.push) t) :
      Starts n (.repeat name items body) s n body t
  | untagged {n : Nat} {tag : TagPlan} {body : Block} {s : RenderState}
      (h : context.omits s.scope tag.omission = .ok true) : Starts n (.element tag body) s n body s
  | tagged {n : Nat} {tag : TagPlan} {body : Block} {s : RenderState} {start : String}
      (h : context.omits s.scope tag.omission = .ok false)
      (hs : context.startTag s.scope tag = .ok start) :
      Starts n (.element tag body) s n body (s.write start)
  | guarded {n : Nat} {body : Block} {handler : LocatedExpression} {asMarkup : Bool}
      {s : RenderState} : Starts n (.onError body handler asMarkup) s n body s
  | called {n : Nat} {callee : MacroTarget} {fills : List (String × Block)}
      {arguments : List (String × Argument)} {location : Location} {s : RenderState} {m : Macro}
      {bindings : List (String × Value)}
      (h : context.prepareCall s.scope callee arguments location = .ok (m, bindings)) :
      Starts (n + 1) (.callMacro callee fills arguments location) s n m.body
        ((s.enter fills).withScope (defineAll bindings s.scope.push))
  | unfilled {n : Nat} {name : String} {fallback : Block} {s : RenderState}
      (h : s.fill? name = none) : Starts n (.slot name fallback) s n fallback s
  | filled {n : Nat} {name : String} {fallback body : Block} {s : RenderState} {caller : Option Nat}
      (h : s.fill? name = some (body, caller)) :
      Starts (n + 1) (.slot name fallback) s n body (s.within caller)

/-- A block that runs from one state executes an operation in another. -/
inductive Executes : Nat → Block → RenderState → Nat → Operation → RenderState → Prop
  | here {n : Nat} {op : Operation} {ops : Block} {s : RenderState} : Executes n (op :: ops) s n op s
  | later {n k : Nat} {op found : Operation} {ops : Block} {s t u : RenderState}
      (h : (context.operation (context.enterWithin n) op).run s = .done () t)
      (he : Executes n ops t k found u) : Executes n (op :: ops) s k found u
  | inside {n m k : Nat} {op found : Operation} {ops body : Block} {s t u : RenderState}
      (h : context.Starts n op s m body t) (he : Executes m body t k found u) :
      Executes n (op :: ops) s k found u

/-- No definition executed by a block writes to a frame other than the innermost. -/
def DefinesLocally (n : Nat) (block : Block) (s : RenderState) : Prop :=
  ∀ {k kind name e u}, context.Executes n block s k (.define kind name e) u → kind = .innermost

namespace DefinesLocally

variable {context} {n m : Nat} {op : Operation} {ops body : Block} {s t : RenderState}

theorem head (h : context.DefinesLocally n (op :: ops) s) : context.DefinesLocally n [op] s :=
  fun he => by
    cases he with
    | here => exact h .here
    | later _ he => cases he
    | inside hs he => exact h (.inside hs he)

theorem tail (h : context.DefinesLocally n (op :: ops) s)
    (hr : (context.operation (context.enterWithin n) op).run s = .done () t) :
    context.DefinesLocally n ops t := fun he => h (.later hr he)

theorem inside (h : context.DefinesLocally n (op :: ops) s) (hs : context.Starts n op s m body t) :
    context.DefinesLocally m body t := fun he => h (.inside hs he)

end DefinesLocally

end RenderContext

end MarkupTemplate
