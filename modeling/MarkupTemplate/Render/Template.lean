import MarkupTemplate.Host.Runtime
import MarkupTemplate.Program.Expressions
import MarkupTemplate.Render.Execute
import MarkupTemplate.Template.Fault

/-!
# Templates that are ready to render

A program with the declared types of its global variables and the names of its function libraries is
accepted if the libraries exist and all of its host code reads and calls known functions. It is then
rendered with values for its global variables.
-/

namespace MarkupTemplate

/-- What a program is to be run with. -/
structure Requirements where
  /-- Declared types of global variables by name. Unknown type names ask for nothing. -/
  globalTypes : Fields String
  /-- Names of function libraries, in the order of the names, each once. -/
  dependencies : Fields Unit
  deriving DecidableEq, Repr, Inhabited

/-- A program that is ready to render. -/
structure Template where
  program : Program
  globals : Fields (Option TypeTag)
  host : HostRuntime
  deriving Inhabited

namespace Program

/-- The host code of a program with the places of its expressions, in order. -/
def hostCode (program : Program) : List (String × Location) :=
  program.expressions.flatMap fun e => e.expression.hostCode.map fun code => (code, e.location)

/-- Prepares one piece of host code. -/
def prepareCode (host : HostRuntime) (piece : String × Location) :
    Except TemplateFault HostRuntime :=
  match host.prepare piece.1 with
  | .ok host => .ok host
  | .error fault => .error (.compile (.host fault) (some piece.2))

/-- The program made ready to render. -/
def accept (program : Program) (requirements : Requirements) : Except TemplateFault Template := do
  let code := program.hostCode
  let libraries ← match Host.libraries requirements.dependencies.names with
    | .ok libraries => pure libraries
    | .error name =>
      .error (.compile (.host (.unknownLibrary name)) (code.head?.map (·.2)))
  let host ← code.foldlM prepareCode (HostRuntime.ofLibraries libraries)
  return ⟨program, requirements.globalTypes.map fun g => (g.1, TypeTag.parse? g.2), host⟩

end Program

namespace Template

/-- How many macros and fills may run inside each other; memory ends long before. -/
def depthBound : Nat := UInt64.size

/-- A declared global variable with its value, which is nothing if none is given. -/
def declaredGlobal (globals : Frame) (declared : String × Option TypeTag) :
    Except RenderFault (String × Value) :=
  let v := (globals.get? declared.1).getD .nothing
  match declared.2 with
  | none => .ok (declared.1, v)
  | some tag =>
    match tag.coerce v with
    | .ok v => .ok (declared.1, v)
    | .error fault => .error ⟨.badGlobal declared.1 fault, none⟩

/-- A frame with more variables. -/
def bindAll (frame : Frame) (more : List (String × Value)) : Frame :=
  more.foldl (fun frame entry => Fields.insert entry.1 entry.2 frame) frame

/-- The variables before a template runs: the globals given, over them those declared, and over all
the macros. -/
def rootFrame (template : Template) (globals : Frame) : Except RenderFault Frame := do
  let declared ← template.globals.mapM (declaredGlobal globals)
  return bindAll (bindAll globals declared) template.program.macroBindings

/-- What the template needs while it runs. -/
def context (template : Template) (format : ValueFormatter) : RenderContext :=
  ⟨template.program.macros, template.host.evaluate, format⟩

/-- The text of a template if at most `bound` macros and fills run inside each other, else none. -/
def renderWithin (template : Template) (bound : Nat) (format : ValueFormatter) (globals : Frame) :
    Option (Except RenderFault String) :=
  match template.rootFrame globals with
  | .error fault => some (.error fault)
  | .ok frame =>
    let body := template.program.body
    match ((template.context format).runBlock bound body).run (.initial (.ofGlobals frame)) with
    | .done _ s => some (.ok s.text)
    | .failed fault _ => some (.error fault)
    | .exhausted => none

/-- The text of a template. -/
def render (template : Template) (format : ValueFormatter) (globals : Frame) :
    Except RenderFault String :=
  (template.renderWithin depthBound format globals).getD (.error ⟨.tooDeep, none⟩)

/-- Renders into a sink with room for so many octets: the room that is left. The text is written in
one piece, or not at all. -/
def renderInto (template : Template) (format : ValueFormatter) (globals : Frame) (room : Nat) :
    Except RenderFault Nat := do
  let text ← template.render format globals
  if text.utf8ByteSize ≤ room then return room - text.utf8ByteSize
  else .error ⟨.sink, none⟩

end Template

end MarkupTemplate
