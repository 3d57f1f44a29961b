import MarkupTemplate.Storage.Basic

/-!
# Arguments of the command line

A command, a template and options. An option's value follows its name or an equals sign; a value that
follows does not begin with a hyphen, unless it is one. Only the names of function libraries may be given
several times. Behind a double hyphen nothing is an option.
-/

namespace MarkupTemplate.CommandLine

/-- What is said about a template. -/
structure TemplateArguments where
  template : String
  dependencies : List String
  importRoot : Option String
  asText : Bool
  deriving DecidableEq, Repr, Inhabited

/-- What the command line can be asked to do. -/
inductive Command where
  | render (template : TemplateArguments) (globals cacheDirectory : Option String)
    (pattern : String)
  | key (template : TemplateArguments)
  deriving DecidableEq, Repr

/-- The names of commands. -/
inductive CommandName where
  | render
  | key
  deriving DecidableEq, Repr

/-- What help can be about: the commands in general, one of them, or help itself. -/
inductive HelpTopic where
  | overview
  | command (name : CommandName)
  | help
  deriving DecidableEq, Repr

/-- Why the command line does nothing: help was asked for, or the arguments say nothing. -/
inductive Stop where
  | help (topic : HelpTopic)
  | usage
  deriving DecidableEq, Repr

/-- The options that take a value. -/
inductive ValueOption where
  | dependency
  | importRoot
  | globals
  | cacheDirectory
  | pattern
  deriving DecidableEq, Repr

/-- The option of a name, for a command. -/
def ValueOption.parse? (command : CommandName) (name : String) : Option ValueOption :=
  match name, command with
  | "--dependency", _ => some dependency
  | "--import-root", _ => some importRoot
  | "--globals", .render => some globals
  | "--cache-dir", .render => some cacheDirectory
  | "--pattern", .render => some pattern
  | _, _ => none

/-- What has been read of the arguments. -/
structure Reading where
  template : Option String
  dependencies : List String
  importRoot : Option String
  asText : Bool
  globals : Option String
  cacheDirectory : Option String
  pattern : Option String
  deriving DecidableEq, Repr, Inhabited

namespace Reading

/-- Nothing has been read. -/
def none : Reading := ⟨.none, [], .none, false, .none, .none, .none⟩

/-- A value that is given once; paths are not empty. -/
def once (old : Option String) (value : String) (isPath : Bool) : Except Stop (Option String) :=
  if old.isSome || (isPath && value == "") then .error .usage else .ok (some value)

/-- The reading with a value for an option. -/
def set (r : Reading) (option : ValueOption) (value : String) : Except Stop Reading := do
  match option with
  | .dependency => return { r with dependencies := r.dependencies ++ [value] }
  | .importRoot => return { r with importRoot := ← once r.importRoot value true }
  | .globals => return { r with globals := ← once r.globals value true }
  | .cacheDirectory => return { r with cacheDirectory := ← once r.cacheDirectory value true }
  | .pattern => return { r with pattern := ← once r.pattern value false }

/-- The reading with the template. -/
def setTemplate (r : Reading) (value : String) : Except Stop Reading := do
  return { r with template := ← once r.template value true }

/-- The reading with the template to be read as text. -/
def setText (r : Reading) : Except Stop Reading :=
  if r.asText then .error .usage else .ok { r with asText := true }

/-- The template's arguments, if there is a template. -/
def templateArguments (r : Reading) : Except Stop TemplateArguments :=
  match r.template with
  | some template => .ok ⟨template, r.dependencies, r.importRoot, r.asText⟩
  | Option.none => .error .usage

end Reading

/-- The argument looks like an option. -/
def isOption (argument : String) : Bool :=
  argument.toList.head? == some '-' && argument != "-"

/-- The name of an option and the value behind an equals sign. -/
def splitOption (argument : String) : String × Option String :=
  match Text.splitFirst '=' argument.toList with
  | some (name, value) => (String.ofList name, some (String.ofList value))
  | none => (argument, none)

/-- The argument asks for help. -/
def isHelp (argument : String) : Bool :=
  argument == "--help" || (Text.dropStart? ['-', 'h'] argument.toList).isSome

/-- Reads the arguments of a command. -/
def read (command : CommandName) (r : Reading) : List String → Except Stop Reading
  | [] => .ok r
  | "--" :: rest => rest.foldlM Reading.setTemplate r
  | argument :: rest =>
    if !isOption argument then do
      read command (← r.setTemplate argument) rest
    else if isHelp argument then .error (.help (.command command))
    else if argument = "--text" then do
      read command (← r.setText) rest
    else
      match ValueOption.parse? command (splitOption argument).1, (splitOption argument).2, rest with
      | some option, some value, rest => do read command (← r.set option value) rest
      | some option, none, value :: rest =>
        if isOption value then .error .usage else do
          read command (← r.set option value) rest
      | _, _, _ => .error .usage

/-- The command that the arguments behind its name ask for. -/
def parseCommand (command : CommandName) (arguments : List String) : Except Stop Command := do
  let r ← read command .none arguments
  let template ← r.templateArguments
  match command with
  | .render => return .render template r.globals r.cacheDirectory (r.pattern.getD defaultPattern)
  | .key => return .key template

/-- What help is asked for by the names behind `help`. -/
def helpAbout : List String → Stop
  | [] => .help .overview
  | ["render"] => .help (.command .render)
  | ["key"] => .help (.command .key)
  | ["help"] => .help .help
  | _ => .usage

/-- The command that the arguments ask for. -/
def parse : List String → Except Stop Command
  | "render" :: arguments => parseCommand .render arguments
  | "key" :: arguments => parseCommand .key arguments
  | "help" :: names => .error (helpAbout names)
  | argument :: _ => .error (if isHelp argument then .help .overview else .usage)
  | [] => .error .usage

end MarkupTemplate.CommandLine
