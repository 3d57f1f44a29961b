import MarkupTemplate.Artifact.Compiled
import MarkupTemplate.Cache.Basic
import MarkupTemplate.Proofs.Artifact.Programs
import MarkupTemplate.Proofs.Compile.Definitions
import MarkupTemplate.Proofs.Json.RoundTrip
import MarkupTemplate.Proofs.Text.Utf8

/-!
# Stored programs that are read back

A compiled program is stored with its requirements, which are kept in order as the names of its macros are
(`CompiledProgram.IsOrdered`). What a request compiles to is so, and if a JSON text keeps its data, it is
decoded from its octets (`CompiledProgram.decode?_encode`).
-/

namespace MarkupTemplate

open Json

namespace CompiledProgram

/-- Fields that are stored as members of objects are in order. -/
structure IsOrdered (c : CompiledProgram) : Prop where
  namespaces : MacroNames.IsSorted c.program.namespaces
  globalTypes : Fields.IsSorted c.requirements.globalTypes
  dependencies : Fields.IsSorted c.requirements.dependencies

variable {c : CompiledProgram}

theorem nameSet_names {names : Fields Unit} (h : Fields.IsSorted names) : nameSet names.names = names := by
  have hunit : names.names.map (fun name => (name, ())) = names := by
    rw [Fields.names, List.map_map]
    exact List.map_id names
  rw [nameSet, hunit]
  exact h.ofList

theorem ofJson?_toJson (h : c.IsOrdered) : ofJson? c.toJson = some c := by
  have htypes : mapOf? text? (.object (c.requirements.globalTypes.map fun g => (g.1, .string g.2))) =
      some c.requirements.globalTypes := mapOf?_map _ fun _ _ => rfl
  have hdependencies : listOf? text? (.array (c.requirements.dependencies.names.map .string)) =
      some c.requirements.dependencies.names := listOf?_map _ fun _ _ => rfl
  have hprogram := Program.ofJson?_toJson h.namespaces.labels h.namespaces.places
  simp [toJson, ofJson?, record?, membersNamed, htypes, hdependencies, hprogram, h.globalTypes.ofList,
    nameSet_names h.dependencies]

/-- A program is decoded from the octets in which it is stored, if a text keeps its data. -/
theorem decode?_encode (h : c.IsOrdered) (hk : c.toJson.IsKept depthLimit) : decode? c.encode = some c := by
  unfold decode? encode
  rw [Text.decodeUtf8_encodeUtf8]
  simp only [read?_write hk, Option.bind_some, ofJson?_toJson h]

end CompiledProgram

/-- What a request compiles to has its fields in order. -/
theorem CacheConfig.isOrdered_of_compileWith {config : CacheConfig} {request : TemplateRequest}
    {imports : List ImportedSource} {c : CompiledProgram} (h : config.compileWith request imports = .ok c)
    (ht : Fields.IsSorted request.requirements.globalTypes) : c.IsOrdered := by
  obtain ⟨program, hp, h⟩ := bind_eq_ok.1 h
  cases h
  exact ⟨Program.isSorted_namespaces hp, ht, Fields.isSorted_ofList _⟩

end MarkupTemplate
