import MarkupTemplate.Cache.Basic

/-!
# Templates without a cache of one's own

Compiling and rendering a template in one call, with imports given as texts and nothing kept in files.
-/

namespace MarkupTemplate

/-- A cache for templates read as markup, whose only imports come with the requests. -/
def Cache.plain : Cache :=
  .empty ⟨.markup, .none, [], .memory⟩

/-- The compiled template for a text. -/
def compileTemplate (text : String) (requirements : Requirements) :
    Except TemplateFault CompiledTemplate :=
  (Cache.plain.compile .empty ⟨text, none, requirements, []⟩).1

/-- The text of a template, every global variable being declared. -/
def renderTemplate (text : String) (globals : Frame) (imports : List (String × String))
    (dependencies : List String) : Except TemplateFault String :=
  let requirements : Requirements := ⟨[], CompiledProgram.nameSet dependencies⟩
  (Cache.plain.render .empty ⟨text, none, requirements, imports⟩ globals).1

end MarkupTemplate
