import MarkupTemplate.Evaluation.Evaluate
import MarkupTemplate.Render.State
import MarkupTemplate.Render.Tag
import MarkupTemplate.Value.Coerce

/-!
# Running programs

What each operation does to the state. Values, tags and the arguments of calls are told from the
variables alone; only operations change the state. A block runs the blocks inside its operations itself.
The bodies of macros and what fills their slots are run by `enter`, so that a block alone does not recurse
without end; `runBlock` ties the knot, through as many macros and fills inside each other as its bound
allows.
-/

namespace MarkupTemplate

/-- What a running program needs besides its state. -/
structure RenderContext where
  macros : List Macro
  host : HostEvaluator
  format : ValueFormatter

namespace RenderContext

variable (context : RenderContext)

/-- The value of an expression. -/
def value (scope : Scope) (e : LocatedExpression) : Except RenderFault Value :=
  match e.expression.evaluate context.host scope with
  | .ok v => .ok v
  | .error fault => .error ⟨.evaluation fault e.text, some e.location⟩

/-- The text of a value as content, escaped unless it is markup; `nothing` has none. -/
def contentText (v : Value) (asMarkup : Bool) : String :=
  if v.isNothing then ""
  else if asMarkup then context.format v
  else escapeContent (context.format v)

/-- The values of the attributes of a tag, evaluated in order. -/
def computedValues (scope : Scope) (values : ComputedValues) :
    List ComputedAttribute → Except RenderFault ComputedValues
  | [] => .ok values
  | a :: rest => do
    let v ← context.value scope a.value
    computedValues scope (values.put a.name v) rest

/-- The tag is left out. -/
def omits (scope : Scope) : Omission → Except RenderFault Bool
  | .never => .ok false
  | .always => .ok true
  | .when e => Value.isTruthy <$> context.value scope e

/-- The text of a start tag. -/
def startTag (scope : Scope) (tag : TagPlan) : Except RenderFault String :=
  tag.startTag context.format <$> context.computedValues scope [] tag.computed

/-- Content between its tags. -/
def element (tag : TagPlan) (body : Run RenderState Unit) : Run RenderState Unit := do
  let omitted ← Run.readScope (context.omits · tag.omission)
  if omitted then body
  else do
    let start ← Run.readScope (context.startTag · tag)
    Run.write start
    body
    Run.write (tag.closing.getD "")

/-- The variables after one of them is bound to the value of an expression. -/
def bind (kind : BindingKind) (name : String) (e : LocatedExpression) (scope : Scope) :
    Except RenderFault Scope := do
  let v ← context.value scope e
  match kind with
  | .innermost => return scope.defineLocal name v
  | .root => return scope.defineGlobal name v
  | .existing =>
    match scope.set name v with
    | .ok scope => return scope
    | .error fault => .error ⟨.evaluation fault e.text, some e.location⟩

/-- Binds a variable to the value of an expression. -/
def define (kind : BindingKind) (name : String) (e : LocatedExpression) : Run RenderState Unit := do
  let scope ← Run.readScope (context.bind kind name e)
  Run.modifyScope fun _ => scope

/-! ### Repetition -/

/-- What a repetition runs through: the items of a list, the names in a map, the characters of a
string, or nothing. -/
def itemsOf? : Value → Option (List Value)
  | .list items => some items
  | .map fields => some (fields.map fun field => .str field.1)
  | .str s => some (s.toList.map fun c => .str c.toString)
  | .nothing => some []
  | _ => none

/-- What templates can ask about a repetition at an index. -/
def repetition (index length : Nat) : Value :=
  let even := index % 2 == 0
  .map (Fields.ofList [
    ("index", .ofNat index),
    ("number", .ofNat (index + 1)),
    ("even", .bool even),
    ("odd", .bool !even),
    ("parity", .str (if even then "even" else "odd")),
    ("start", .bool (index == 0)),
    ("end", .bool (index + 1 == length)),
    ("first", .bool (index == 0)),
    ("last", .bool (index + 1 == length)),
    ("length", .ofNat length)])

/-- The repetitions around a place. -/
def outerLoops (scope : Scope) : Fields Value :=
  match scope.get? "repeat" with
  | some (.map loops) => loops
  | _ => []

/-- The items that a repetition runs through; none for `default`. -/
def loopItems (scope : Scope) (e : LocatedExpression) : Except RenderFault (Option (List Value)) := do
  let v ← context.value scope e
  if v.isDefault then return none
  else
    match itemsOf? v with
    | some items => return some items
    | none => .error ⟨.evaluation (.mismatch (.notIterable v.kind)) e.text, some e.location⟩

/-- The variables in which a repetition runs for the item at an index. -/
def itemScope (name : String) (loops : Fields Value) (length index : Nat) (item : Value)
    (scope : Scope) : Scope :=
  (scope.defineLocal name item).defineLocal "repeat"
    (.map (loops.insert name (repetition index length)))

/-- Runs a block for items, the first of which has this index. -/
def repeatFrom (name : String) (loops : Fields Value) (length : Nat) (body : Run RenderState Unit) :
    Nat → List Value → Run RenderState Unit
  | _, [] => pure ()
  | index, item :: items => do
    Run.modifyScope (itemScope name loops length index item)
    body
    repeatFrom name loops length body (index + 1) items

/-- Runs a block once for each item; for `default` once, as it stands. -/
def loop (name : String) (items : LocatedExpression) (body : Run RenderState Unit) :
    Run RenderState Unit := do
  let found ← Run.readScope (context.loopItems · items)
  match found with
  | none => body
  | some values => do
    let s ← Run.get
    Run.inFrame (repeatFrom name (outerLoops s.scope) values.length body 0 values)

/-! ### Failures -/

/-- What a handler sees of a failure. -/
def failureRecord (fault : RenderFault) : Value :=
  let place := match fault.location with
    | some l => [("line", Value.ofNat l.line), ("column", Value.ofNat l.column)]
    | none => []
  .map (Fields.ofList
    ([("type", Value.str fault.problem.typeName), ("value", Value.str fault.problem.message)] ++ place))

/-- The text of a handler's value, with the failure bound in a frame of its own; none for `default`. -/
def handlerText (handler : LocatedExpression) (asMarkup : Bool) (fault : RenderFault)
    (scope : Scope) : Except RenderFault String := do
  let v ← context.value (scope.push.defineLocal "error" (failureRecord fault)) handler
  return if v.isDefault then "" else context.contentText v asMarkup

/-- Takes back what a failed block has done and writes the handler's value. -/
def recover (handler : LocatedExpression) (asMarkup : Bool) (m : RenderMark) (fault : RenderFault) :
    Run RenderState Unit := do
  Run.modify (·.backTo m)
  let text ← Run.readScope (context.handlerText handler asMarkup fault)
  Run.write text

/-- Runs a block; if it fails and the fault is recoverable, the handler's value is written instead. -/
def guard (handler : LocatedExpression) (asMarkup : Bool) (body : Run RenderState Unit) :
    Run RenderState Unit := ⟨fun s =>
  match body.run s with
  | .failed fault t =>
    if fault.isRecoverable then (context.recover handler asMarkup s.mark fault).run t
    else .failed fault t
  | outcome => outcome⟩

/-! ### Macros -/

/-- The place of the macro to be called. -/
def target (scope : Scope) : MacroTarget → Except RenderFault Nat
  | .known id => .ok id
  | .computed e => do
    match ← context.value scope e with
    | .handle m => return m.id
    | v => .error ⟨.notMacro e.text v.kind, some e.location⟩

/-- The expression of the argument that is passed for a parameter. -/
def passed? (arguments : List (String × Argument)) (name : String) : Option LocatedExpression :=
  match arguments.lookup name with
  | some (.value e) => some e
  | _ => none

/-- A value as one of a parameter's type; `source` is the expression it comes from. -/
def coerceFor (p : Parameter) (source : Option LocatedExpression) (location : Location) (v : Value) :
    Except RenderFault Value :=
  match p.type.coerce v with
  | .ok v => .ok v
  | .error fault =>
    let text := (source.map LocatedExpression.text).getD ""
    .error ⟨.evaluation fault (text ++ " (parameter '" ++ p.name ++ "')"),
      some ((source.map LocatedExpression.location).getD location)⟩

/-- The value of a parameter: what is passed, else its default, else nothing. -/
def bindParameter (scope : Scope) (arguments : List (String × Argument)) (location : Location)
    (p : Parameter) : Except RenderFault (String × Value) := do
  let source := (passed? arguments p.name).or p.default?
  let v ← match source with
    | some e => context.value scope e
    | none => .ok .nothing
  return (p.name, ← coerceFor p source location v)

/-- The first argument for which a macro has no parameter. -/
def unknownArgument? (m : Macro) (arguments : List (String × Argument)) : Option String :=
  (arguments.map (·.1)).find? fun name => !m.parameters.any (·.name == name)

/-- The macro of a call with the values of its parameters in order. -/
def prepareCall (scope : Scope) (callee : MacroTarget) (arguments : List (String × Argument))
    (location : Location) : Except RenderFault (Macro × List (String × Value)) := do
  let id ← context.target scope callee
  match context.macros[id]? with
  | none => .error ⟨.noSuchMacro id, some location⟩
  | some m =>
    match unknownArgument? m arguments with
    | some name => .error ⟨.noSuchParameter m.name name, some location⟩
    | none => return (m, ← m.parameters.mapM (context.bindParameter scope arguments location))

/-- The variables of a frame with more of them. -/
def defineAll (bindings : List (String × Value)) (scope : Scope) : Scope :=
  bindings.foldl (fun scope binding => scope.defineLocal binding.1 binding.2) scope

/-- Calls a macro: its parameters are bound in a frame of their own, and its slots take `fills`. -/
def call (enter : Block → Run RenderState Unit) (callee : MacroTarget)
    (fills : List (String × Block)) (arguments : List (String × Argument)) (location : Location) :
    Run RenderState Unit := do
  let (m, bindings) ← Run.readScope (context.prepareCall · callee arguments location)
  let s ← Run.get
  Run.modify (·.enter fills)
  Run.inFrame do
    Run.modifyScope (defineAll bindings)
    enter m.body
  Run.modify (·.leave s.current)

/-- Runs what the current call fills into a slot, as part of the call that the fill stands in; without
a fill, what the slot holds. -/
def slot (enter : Block → Run RenderState Unit) (name : String) (fallback : Run RenderState Unit) :
    Run RenderState Unit := do
  let s ← Run.get
  match s.fill? name with
  | none => fallback
  | some (body, caller) => do
    Run.modify (·.within caller)
    enter body
    Run.modify (·.within s.current)

/-! ### Blocks -/

mutual

/-- Runs one operation. -/
def operation (enter : Block → Run RenderState Unit) : Operation → Run RenderState Unit
  | .literal text => Run.write text
  | .emit e asMarkup fallback => do
    let v ← Run.readScope (context.value · e)
    if v.isDefault then operations enter fallback else Run.write (context.contentText v asMarkup)
  | .pushScope => Run.modifyScope Scope.push
  | .popScope => Run.modifyScope Scope.pop
  | .define kind name e => context.define kind name e
  | .condition test body => do
    let v ← Run.readScope (context.value · test)
    if v.isTruthy then operations enter body else pure ()
  | .repeat name items body => context.loop name items (operations enter body)
  | .element tag body => context.element tag (operations enter body)
  | .onError body handler asMarkup => context.guard handler asMarkup (operations enter body)
  | .callMacro callee fills arguments location => context.call enter callee fills arguments location
  | .slot name fallback => slot enter name (operations enter fallback)

/-- Runs operations in order. -/
def operations (enter : Block → Run RenderState Unit) : List Operation → Run RenderState Unit
  | [] => pure ()
  | op :: ops => do
    operation enter op
    operations enter ops

end

/-- Runs a block in which at most `bound` macros and fills run inside each other. -/
def runBlock : Nat → Block → Run RenderState Unit
  | 0 => context.operations fun _ => Run.exhaust
  | bound + 1 => context.operations (runBlock bound)

end RenderContext

end MarkupTemplate
