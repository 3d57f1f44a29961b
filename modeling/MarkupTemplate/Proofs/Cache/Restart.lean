import MarkupTemplate.Proofs.Cache.Transparency
import MarkupTemplate.Proofs.Storage.Recovery

/-!
# Caches after a restart

A program that is kept in a directory is read back as it was, if a JSON text keeps its data, and a cache that
is opened on the directory later serves it without compiling (`CacheConfig.served_after_restart`). Not every
program is kept: a number that is too large to be finite is written as `null`, which no number is read from
(`CacheConfig.lost_after_restart`).
-/

namespace MarkupTemplate

variable {config : CacheConfig} {request : TemplateRequest} {imports : List ImportedSource}
  {c : CompiledProgram} {template : Template} {tree : FileTree}

/-- A program that is taken over is held, if it is accepted and no other one has its key. -/
theorem Cache.get?_foldl_accept {programs : List CompiledProgram} {cache : Cache}
    (h : c ∈ programs ∨ cache.entries.get? c.key.text = some ⟨c, template⟩)
    (honly : ∀ other ∈ programs, other.key.text = c.key.text → other = c)
    (ha : c.program.accept c.requirements = .ok template) :
    (programs.foldl (fun cache c => (cache.accept c).2) cache).entries.get? c.key.text =
      some ⟨c, template⟩ := by
  -- the program is still to come or held already, and taking one over keeps it so
  induction programs generalizing cache with
  | nil => exact h.resolve_left List.not_mem_nil
  | cons first programs ih =>
    rw [List.foldl_cons]
    refine ih ?_ fun other ho => honly other (by simp [ho])
    by_cases hkey : first.key.text = c.key.text
    · obtain rfl := honly first (by simp) hkey
      right
      simp only [accept, ha]
      rw [Fields.get?_insert, if_pos rfl]
    · refine h.imp (fun h => ?_) fun h => ?_
      · rcases List.mem_cons.1 h with rfl | h
        · exact absurd rfl hkey
        · exact h
      · unfold accept
        split
        · exact h
        · dsimp only
          rw [Fields.get?_insert, if_neg (Ne.symm hkey)]
          exact h

/-- What is held for the key of a request is its answer, and nothing is compiled or written. -/
theorem Cache.compile_held {cache : Cache} {entry : CompiledTemplate}
    (hi : cache.config.importsOf tree request = .ok imports)
    (hheld : (cache.ensureRecovered tree).entries.get? (cache.config.keyWith request imports).text =
      some entry) :
    cache.compile tree request = (.ok entry, cache.ensureRecovered tree, tree) := by
  have hconfig : (cache.ensureRecovered tree).config = cache.config := config_ensureRecovered ..
  unfold compile
  rw [hi]
  simp only [hconfig, hheld]

namespace CacheConfig

/-- What a request compiles to is decoded from the octets in which it is stored. Storing it leaves its file
in the directory, and as long as the file is there, a cache that is opened on the directory has the answer to
the request among what it takes over, if the imports are still the same. -/
theorem served_after_restart (hc : config.compileWith request imports = .ok c)
    (ht : Fields.IsSorted request.requirements.globalTypes) (hk : c.toJson.IsKept Json.depthLimit) :
    CompiledProgram.decode? c.encode = some c ∧
      ∀ directory pattern, config.storage = .files directory pattern →
        (∀ tree written, directory ≠ "" →
          tree.writeIn directory (pattern.fileName c.key.text) c.encode = .ok written →
          config.storage.persist tree c = written ∧
            written.HasFile directory (pattern.fileName c.key.text) c.encode) ∧
        ∀ tree template, tree.HasFile directory (pattern.fileName c.key.text) c.encode →
          c.program.accept c.requirements = .ok template → config.importsOf tree request = .ok imports →
          (Cache.empty config).compile tree request =
            (.ok ⟨c, template⟩, (Cache.empty config).ensureRecovered tree, tree) := by
  have hread := CompiledProgram.decode?_encode (isOrdered_of_compileWith hc ht) hk
  refine ⟨hread, fun directory pattern hs => ⟨fun tree written hne hw => ?_, fun tree template hf ha hi => ?_⟩⟩
  · exact ⟨by rw [hs, Storage.persist, hw], FileTree.hasFile_writeIn hne hw⟩
  · have hkey := key_of_compileWith hc
    have hversion : c.generator = generatorVersion := by
      obtain ⟨program, -, hc⟩ := bind_eq_ok.1 hc
      cases hc
      rfl
    have hrecover := pattern.recover?_written (hkey.trans keyWith_eq) hversion hread
    obtain ⟨hmem, honly⟩ := Storage.mem_recover_of_hasFile hf hrecover
    rw [← hs] at hmem honly
    refine Cache.compile_held hi ?_
    show Fields.get? _ (config.keyWith request imports).text = _
    rw [← hkey]
    exact Cache.get?_foldl_accept (.inl hmem) honly ha

/-- Pages that are kept in a directory. -/
def keptPages : CacheConfig :=
  ⟨.markup, .none, [], .files "kept" ⟨"talc-".toList, ".json".toList⟩⟩

/-- A macro that writes a variable or a number. -/
def numberPage : TemplateRequest :=
  ⟨"<b metal:define-macro=\"m\" tal:content=\"x | 1.5\"/>", none, ⟨[("x", "str")], []⟩, []⟩

theorem importsOf_numberPage (tree : FileTree) : keptPages.importsOf tree numberPage = .ok [] := by
  have hfound : (keptPages.importsOf .empty numberPage).toOption.any List.isEmpty := by decide +kernel
  show keptPages.importsOf .empty numberPage = .ok []
  cases hi : keptPages.importsOf .empty numberPage with
  | error fault => rw [hi] at hfound; cases hfound
  | ok imports =>
    rw [hi] at hfound
    rw [List.isEmpty_iff.1 hfound]

theorem served_after_restart_numberPage : ∃ c template written,
    keptPages.compileWith numberPage [] = .ok c ∧ CompiledProgram.decode? c.encode = some c ∧
      keptPages.storage.persist .empty c = written ∧
      (Cache.empty keptPages).compile written numberPage =
        (.ok ⟨c, template⟩, (Cache.empty keptPages).ensureRecovered written, written) := by
  have hmade : (keptPages.compileWith numberPage []).toOption.any fun c =>
      decide (c.toJson.IsKept Json.depthLimit) && (c.program.accept c.requirements).toOption.isSome &&
        (FileTree.empty.writeIn "kept" (FilePattern.fileName ⟨"talc-".toList, ".json".toList⟩ c.key.text)
          c.encode).toOption.isSome := by
    decide +kernel
  cases hc : keptPages.compileWith numberPage [] with
  | error fault => rw [hc] at hmade; cases hmade
  | ok c =>
    rw [hc] at hmade
    simp only [Except.toOption, Option.any_some, Bool.and_eq_true, decide_eq_true_eq] at hmade
    obtain ⟨⟨hk, ha⟩, hw⟩ := hmade
    cases ha' : c.program.accept c.requirements with
    | error fault => rw [ha'] at ha; cases ha
    | ok template =>
      generalize hw' : FileTree.empty.writeIn "kept" _ c.encode = made at hw
      cases made with
      | error problem => cases hw
      | ok written =>
        have hserved := served_after_restart hc (List.pairwise_singleton _ _) hk
        obtain ⟨hstore, hserve⟩ := hserved.2 _ _ rfl
        obtain ⟨hp, hfile⟩ := hstore _ _ (by decide) hw'
        exact ⟨c, template, written, rfl, hserved.1, hp,
          hserve _ _ hfile ha' (importsOf_numberPage written)⟩

/-- A number that is too large for a float. -/
def tooLarge : TemplateRequest :=
  ⟨"<p tal:content=\"1e999\"/>", none, ⟨[], []⟩, []⟩

/-- The program of such a number is not read back, and nothing is recovered after it was kept. -/
theorem lost_after_restart : ∃ c, keptPages.compileWith tooLarge [] = .ok c ∧
    CompiledProgram.decode? c.encode = none ∧
      keptPages.storage.recover (keptPages.storage.persist .empty c) = [] := by
  have hlost : (keptPages.compileWith tooLarge []).toOption.any fun c =>
      (CompiledProgram.decode? c.encode).isNone := by
    simp only [CompiledProgram.decode?_eq, CompiledProgram.encode, Text.encodeUtf8_eq]
    decide +kernel
  cases hc : keptPages.compileWith tooLarge [] with
  | error fault => rw [hc] at hlost; cases hlost
  | ok c =>
    rw [hc] at hlost
    have hread : CompiledProgram.decode? c.encode = none := Option.isNone_iff_eq_none.1 hlost
    exact ⟨c, rfl, hread, Storage.recover_persist_unreadable rfl hread⟩

end CacheConfig

end MarkupTemplate
