import MarkupTemplate.CommandLine.Run

/-!
# What commands read

The files that a command reads can be told before it runs: the template and the global variables, which
the arguments name, the directories, and then one import after another, as each text names the next. So
a file tree needs to hold no more of a file system than this.
-/

namespace MarkupTemplate.CommandLine

namespace Command

/-- The template of a command. -/
def template : Command → TemplateArguments
  | render t _ _ _ => t
  | key t => t

/-- The files that the arguments name. -/
def files : Command → List String
  | render t globals _ _ => t.template :: globals.toList
  | key t => [t.template]

/-- The directory of stored programs. -/
def storageDirectory? : Command → Option String
  | render _ _ directory _ => directory
  | key _ => none

/-- The path of the first import that the tree lacks. -/
def nextImport? (tree : FileTree) (c : Command) : Option String :=
  let t := c.template
  match Cache.setUp (t.setup .memory) tree, readText tree t.template with
  | .ok cache, .ok text =>
    match cache.config.importsOf tree (t.request text) with
    | .error (.resource (.notFound path)) => FileTree.belowRoot? t.root path
    | _ => none
  | _, _ => none

end Command

/-- The files of a tree that another one has not, or has otherwise. -/
def changes (old new : FileTree) : List (Place × Octets) :=
  new.entries.filterMap fun entry =>
    match entry with
    | (place, .file octets) => if old.file? place = some octets then none else some (place, octets)
    | (_, .directory) => none

end MarkupTemplate.CommandLine
