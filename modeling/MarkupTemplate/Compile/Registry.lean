import MarkupTemplate.Directive.Basic
import MarkupTemplate.Import.Closure

/-!
# Macros and the templates that define them

A compilation involves units: the main template, which is the first one, and every template imported,
once for each path. A unit sees macros by alias and name: its own and those imported without an alias
under the empty alias, others under theirs. Of one name the import that comes later wins, and the unit's
own macro over all. Imports that lead back to a template being registered are refused.
-/

namespace MarkupTemplate

/-- An element of a tree. -/
structure Element where
  start : StartTag
  children : List Node
  closing : Option EndTag
  deriving Inhabited

/-- A macro with the element that defines it and the place of its unit. -/
structure MacroDefinition where
  name : String
  unit : Nat
  element : Element
  location : Location
  deriving Inhabited

/-- Macros by alias and name, given by their places. -/
abbrev MacroNames := Fields (Fields Nat)

/-- A template of the compilation. -/
structure TemplateUnit where
  path : Option String
  names : MacroNames
  deriving Inhabited

/-- The units and macros of a compilation. -/
structure MacroRegistry where
  units : List TemplateUnit
  definitions : List MacroDefinition
  deriving Inhabited

/-! ### Macro directives of a tree -/

/-- Imports with their places and macros with their elements, in document order. -/
structure MacroDirectives where
  imports : List (String × Location)
  macros : List (String × Element)
  deriving Inhabited

namespace MacroDirectives

/-- The directives of one list behind those of another. -/
def append (d e : MacroDirectives) : MacroDirectives :=
  ⟨d.imports ++ e.imports, d.macros ++ e.macros⟩

/-- The directives that stand on one element. -/
def ofElement (set : DirectiveSet) (element : Element) : MacroDirectives where
  imports := (set.metal? .importMacros).toList.map fun d => (d.argument, d.location)
  macros := (set.metal? .defineMacro).toList.map fun d => (Text.trimString d.argument, element)

mutual

/-- The directives of a node. -/
def ofNode : Node → Except TemplateFault MacroDirectives
  | .markup .. => .ok ⟨[], []⟩
  | .element start children closing => do
    let set ← DirectiveSet.ofTag start
    let inside ← ofNodes children
    return (ofElement set ⟨start, children, closing⟩).append inside

/-- The directives of nodes in order. -/
def ofNodes : List Node → Except TemplateFault MacroDirectives
  | [] => .ok ⟨[], []⟩
  | node :: nodes => do
    let first ← ofNode node
    let others ← ofNodes nodes
    return first.append others

end

end MacroDirectives

namespace MacroNames

/-- The macros under an alias. -/
def under (names : MacroNames) (label : String) : Fields Nat :=
  (names.get? label).getD []

/-- The names with more macros under an alias, which take the place of those with their names. -/
def extend (names : MacroNames) (label : String) (more : Fields Nat) : MacroNames :=
  names.insert label (more.foldl (fun known entry => known.insert entry.1 entry.2) (names.under label))

end MacroNames

namespace MacroRegistry

/-- No unit and no macro. -/
def empty : MacroRegistry := ⟨[], []⟩

/-- The unit of a path. -/
def unitAt? (r : MacroRegistry) (path : String) : Option Nat :=
  r.units.findIdx? (·.path == some path)

/-- The macros that a unit sees. -/
def names (r : MacroRegistry) (unit : Nat) : MacroNames :=
  (r.units[unit]?.map TemplateUnit.names).getD []

/-- The path of a unit. -/
def path? (r : MacroRegistry) (unit : Nat) : Option String :=
  r.units[unit]?.bind TemplateUnit.path

/-- The macro that the element at an offset of a unit defines. -/
def definitionAt? (r : MacroRegistry) (unit offset : Nat) : Option Nat :=
  r.definitions.findIdx? fun d => d.unit == unit && d.location.offset == offset

/-! ### Registering -/

/-- How an import is registered: the template at a path, asked for at a place, gives its unit. -/
abbrev Importer := String → Location → MacroRegistry → Except TemplateFault (MacroRegistry × Nat)

/-- A unit's names and the registry after one import entry. -/
def importEntry (load : Importer) (path : Option String) (location : Location)
    (state : MacroRegistry × MacroNames) (entry : Directive.ImportEntry) :
    Except TemplateFault (MacroRegistry × MacroNames) := do
  let (r, unit) ← load (resolveUri entry.path path) location state.1
  return (r, state.2.extend entry.label ((r.names unit).under ""))

/-- The same after all entries of one directive. -/
def importAll (load : Importer) (path : Option String) (state : MacroRegistry × MacroNames)
    (directive : String × Location) : Except TemplateFault (MacroRegistry × MacroNames) :=
  (Directive.imports directive.1).foldlM (importEntry load path directive.2) state

/-- The registry and a unit's own names after one macro. -/
def defineMacro (unit : Nat) (state : MacroRegistry × Fields Nat) (definition : String × Element) :
    Except TemplateFault (MacroRegistry × Fields Nat) :=
  let (r, own) := state
  let (name, element) := definition
  let location := element.start.location
  if name = "" then .error (.macros .unnamed location)
  else if own.has name then .error (.macros (.duplicate name) location)
  else
    .ok (⟨r.units, r.definitions ++ [⟨name, unit, element, location⟩]⟩,
      own.insert name r.definitions.length)

/-- Registers a document as a new unit. -/
def registerDocument (load : Importer) (document : Document) (path : Option String)
    (r : MacroRegistry) : Except TemplateFault (MacroRegistry × Nat) := do
  let unit := r.units.length
  let r : MacroRegistry := ⟨r.units ++ [⟨path, []⟩], r.definitions⟩
  let directives ← MacroDirectives.ofNodes document.nodes
  let (r, names) ← directives.imports.foldlM (importAll load path) (r, [("", [])])
  let (r, own) ← directives.macros.foldlM (defineMacro unit) (r, [])
  return (⟨r.units.set unit ⟨path, names.extend "" own⟩, r.definitions⟩, unit)

/-- Registers the template at a path unless it is known, through at most `depth` templates; `chain`
holds the paths of those being registered. -/
def importUnit (provider : ResourceProvider) : Nat → List String → Importer
  | 0, _, _, location, _ => .error (.macros .importTooDeep location)
  | depth + 1, chain, target, location, r =>
    if chain.contains target then .error (.macros (.circularImport target) location)
    else
      match r.unitAt? target with
      | some unit => .ok (r, unit)
      | none => do
        let text ← provider.template target
        match Document.parse text (some target) with
        | .error fault => .error (.markup fault)
        | .ok document =>
          registerDocument (importUnit provider depth (target :: chain)) document (some target) r

/-- The registry of a main template and everything it imports. -/
def ofMain (provider : ResourceProvider) (document : Document) (path : Option String) :
    Except TemplateFault MacroRegistry := do
  let load := importUnit provider maxImportDepth path.toList
  let (r, _) ← registerDocument load document path empty
  return r

/-! ### Names of macros -/

/-- The alias and the name that a path spells, if it may mean a macro. -/
def spelled? (names : MacroNames) (p : Path) : Option (String × String) :=
  match p.segments with
  | [name] => if p.root = "macros" then some ("", name) else none
  | [word, name] =>
    if word = "macros" ∧ p.root ≠ "" ∧ names.has p.root then some (p.root, name) else none
  | _ => none

/-- The macro that a path means among a unit's names; none if only its value can tell. -/
def resolveIn? (names : MacroNames) (p : Path) (location : Location) :
    Except TemplateFault (Option Nat) :=
  match spelled? names p with
  | none => .ok none
  | some (label, name) =>
    match (names.under label).get? name with
    | some id => .ok (some id)
    | none =>
      if label = "" then .error (.macros (.unknown name) location)
      else .error (.macros (.unknownUnder label name) location)

/-- The macro that an expression of a unit spells; none if only its value can tell. -/
def resolve? (r : MacroRegistry) (unit : Nat) (e : Expression) (location : Location) :
    Except TemplateFault (Option Nat) :=
  match e.path?, r.units[unit]? with
  | some p, some u => resolveIn? u.names p location
  | _, _ => .ok none

end MacroRegistry

end MarkupTemplate
