import MarkupTemplate.Cache.Setup
import MarkupTemplate.CommandLine.Help
import MarkupTemplate.Import.Uri
import MarkupTemplate.Value.OfJson

/-!
# What commands do

A command reads files, sets up a cache and prints the text or the key of a template. What it does to the
file system is a function on file trees.
-/

namespace MarkupTemplate.CommandLine

open Text

/-- Why a command fails. -/
inductive Failure where
  | template (fault : TemplateFault)
  | unreadable (path : String)
  | badGlobals (path : String)
  deriving DecidableEq, Repr

/-- The failure in words. -/
def Failure.message : Failure → String
  | template fault => fault.message
  | unreadable path => s!"Failed to read '{path}'"
  | badGlobals path => s!"Globals file '{path}' must hold a JSON object"

/-- A part of a path that leads nowhere. -/
def isSilent (part : String) : Bool := part == "" || part == "."

/-- The parts of a path, with an empty one in front if it begins at the top and a point if it begins
there. -/
def components (path : String) : List String :=
  let parts := FileTree.names path
  let said := parts.filter (!isSilent ·)
  match parts with
  | "" :: _ => "" :: said
  | "." :: _ => "." :: said
  | _ => said

/-- The directory of a template. -/
def directoryOf (template : String) : String :=
  match components template with
  | ["", _] => "/"
  | parts => if parts.length ≤ 1 then "." else "/".intercalate parts.dropLast

/-- The name of a file. -/
def fileName (path : String) : String :=
  match (components path).getLast? with
  | some name => if name = ".." || name = "." then "" else name
  | none => ""

/-- The parts behind so many that are not silent. -/
def dropSpoken : Nat → List String → List String
  | 0, parts => parts
  | _, [] => []
  | n + 1, part :: parts => dropSpoken (if isSilent part then n + 1 else n) parts

/-- The parts without the silent ones at both ends. -/
def trimSilent (parts : List String) : List String :=
  ((parts.dropWhile isSilent).reverse.dropWhile isSilent).reverse

/-- The path behind a directory, as it is written, if it leads through the directory. The first part of
a path always counts: it says where the path begins. -/
def behind? (directory path : String) : Option String :=
  let front := components directory
  if front.isPrefixOf (components path) then
    some ("/".intercalate (trimSilent (dropSpoken (front.length - 1) (FileTree.names path).tail)))
  else none

namespace TemplateArguments

/-- The directory that imports are resolved against. -/
def root (t : TemplateArguments) : String :=
  t.importRoot.getD (directoryOf t.template)

/-- The name that the template goes by. -/
def filename (t : TemplateArguments) : String :=
  match t.importRoot with
  | some root => (behind? root t.template).getD t.template
  | none => fileName t.template

/-- The cache for a template. -/
def setup (t : TemplateArguments) (storage : StorageSetup) : CacheSetup where
  mode := if t.asText then .text else .markup
  provider := none
  root := some t.root
  storage
  dependencies := []

/-- The request for a template with this text. -/
def request (t : TemplateArguments) (text : String) : TemplateRequest where
  text
  filename := some t.filename
  requirements := ⟨[], CompiledProgram.nameSet t.dependencies⟩
  imports := []

end TemplateArguments

/-- The text of a file. -/
def readText (tree : FileTree) (path : String) : Except Failure String :=
  match tree.read? path with
  | none => .error (.unreadable path)
  | some octets =>
    match decodeUtf8 octets with
    | .ok text => .ok text
    | .error _ => .error (.unreadable path)

/-- The global variables in a file, or none without a file. -/
def readGlobals (tree : FileTree) : Option String → Except Failure Frame
  | none => .ok []
  | some path => do
    match (Json.parse? (← readText tree path)).map Value.ofJson with
    | some (.map globals) => return globals
    | _ => .error (.badGlobals path)

/-- A result with a template's fault as the failure of a command. -/
def orFail {α : Type} : Except TemplateFault α → Except Failure α
  | .ok a => .ok a
  | .error fault => .error (.template fault)

/-- What a command prints, or why it fails. -/
abbrev Printed := Except Failure String

/-- Renders a template, and the files afterwards. -/
def render (tree : FileTree) (t : TemplateArguments) (globals cacheDirectory : Option String)
    (pattern : String) : Printed × FileTree :=
  let storage := match cacheDirectory with
    | some directory => StorageSetup.files directory pattern
    | none => .memory
  let prepared : Except Failure (Cache × String × Frame) := do
    let cache ← orFail (Cache.setUp (t.setup storage) tree)
    let text ← readText tree t.template
    return (cache, text, ← readGlobals tree globals)
  match prepared with
  | .error failure => (.error failure, tree)
  | .ok (cache, text, globals) =>
    let (result, _, tree) := cache.render tree (t.request text) globals
    (orFail result, tree)

/-- The key of a template on a line of its own. -/
def key (tree : FileTree) (t : TemplateArguments) : Printed := do
  let cache ← orFail (Cache.setUp (t.setup .memory) tree)
  let text ← readText tree t.template
  let key ← orFail (cache.config.keyFor tree (t.request text))
  return key.text ++ "\n"

/-- Runs a command. -/
def Command.run (tree : FileTree) : Command → Printed × FileTree
  | render t globals cacheDirectory pattern =>
    CommandLine.render tree t globals cacheDirectory pattern
  | key t => (CommandLine.key tree t, tree)

/-- What a run of the command line leaves: its exit code, what it prints, what it complains about, and
the files. -/
structure Result where
  code : UInt8
  output : String
  complaint : String
  tree : FileTree
  deriving Inhabited

/-- Runs the command line with its arguments. -/
def run (tree : FileTree) (arguments : List String) : Result :=
  match parse arguments with
  | .error (.help topic) => ⟨0, helpText topic, "", tree⟩
  | .error .usage => ⟨2, "", helpText .overview, tree⟩
  | .ok command =>
    match command.run tree with
    | (.ok text, tree) => ⟨0, text, "", tree⟩
    | (.error failure, tree) => ⟨1, "", "Error: " ++ failure.message ++ "\n", tree⟩

end MarkupTemplate.CommandLine
