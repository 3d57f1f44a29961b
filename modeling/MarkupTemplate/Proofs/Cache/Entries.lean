import MarkupTemplate.Cache.Basic
import MarkupTemplate.Proofs.Import.Closure
import MarkupTemplate.Proofs.Storage.Files

/-!
# What a cache holds

A request has one answer: the program of its text against its imports, ready to render
(`CacheConfig.answer`). It depends on what the key of the request is derived from and on nothing else
(`CacheConfig.compileWith_congr`, `CacheConfig.imports_eq`). A cache is right if each of its entries is the
answer to a request with the entry's key; then it answers as if it held nothing
(`Cache.IsRight.compile_fst`), and a request that fails leaves nothing in it (`Cache.compile_error`).
-/

namespace MarkupTemplate

namespace CacheConfig

variable {config other : CacheConfig} {tree tree' : FileTree} {request request' : TemplateRequest}
  {imports imports' : List ImportedSource}

/-- What the key of a request is derived from. -/
def keyInputs (config : CacheConfig) (request : TemplateRequest) (imports : List ImportedSource) :
    KeyInputs where
  template := request.text
  mode := config.mode
  filename := request.filename
  imports := imports.map ImportedSource.text
  globalTypes := (config.requirements request).globalTypes
  dependencies := (config.requirements request).dependencies

theorem keyWith_eq : config.keyWith request imports = .derive (config.keyInputs request imports) := rfl

/-- The answer to a request: without a cache, from its imports and its text. -/
def answer (config : CacheConfig) (tree : FileTree) (request : TemplateRequest) :
    Except TemplateFault CompiledTemplate := do
  let imports ← config.importsOf tree request
  let compiled ← config.compileWith request imports
  let template ← compiled.program.accept compiled.requirements
  return ⟨compiled, template⟩

/-- The same configuration, except that nothing is kept. -/
def inMemory (config : CacheConfig) : CacheConfig :=
  { config with storage := .memory }

/-- The key of a request is derived from inputs that occur, if it has a key. -/
def KeyOccurs (Occurs : KeyInputs → Prop) (config : CacheConfig) (tree : FileTree)
    (request : TemplateRequest) : Prop :=
  ∀ imports, config.importsOf tree request = .ok imports → Occurs (config.keyInputs request imports)

theorem answer_of_imports (hi : config.importsOf tree request = .ok imports) :
    config.answer tree request = do
      let compiled ← config.compileWith request imports
      let template ← compiled.program.accept compiled.requirements
      return ⟨compiled, template⟩ := by
  rw [answer, hi]
  rfl

theorem answer_of_compiled {compiled : CompiledProgram} (hi : config.importsOf tree request = .ok imports)
    (hc : config.compileWith request imports = .ok compiled) : config.answer tree request =
      CompiledTemplate.mk compiled <$> compiled.program.accept compiled.requirements := by
  rw [answer_of_imports hi, hc]
  rfl

/-- The texts of the imports tell which they are. -/
theorem imports_eq (hi : config.importsOf tree request = .ok imports)
    (hi' : other.importsOf tree' request' = .ok imports')
    (h : config.keyInputs request imports = other.keyInputs request' imports') : imports = imports' := by
  simp only [keyInputs, KeyInputs.mk.injEq] at h
  obtain ⟨htext, hmode, hname, himports, -⟩ := h
  unfold importsOf at hi hi'
  rw [← hmode, ← htext, ← hname] at hi'
  cases hm : config.mode with
  | text =>
    rw [hm] at hi hi'
    cases hi
    cases hi'
    rfl
  | markup =>
    rw [hm] at hi hi'
    exact importClosure_eq_of_texts hi hi' himports

theorem compileWith_congr (h : config.keyInputs request imports = other.keyInputs request' imports) :
    config.compileWith request imports = other.compileWith request' imports := by
  have hkey : config.keyWith request imports = other.keyWith request' imports :=
    congrArg TemplateKey.derive h
  simp only [keyInputs, KeyInputs.mk.injEq] at h
  obtain ⟨htext, hmode, hname, -, htypes, hdependencies⟩ := h
  have hrequirements : config.requirements request = other.requirements request' := by
    cases hr : config.requirements request
    cases hr' : other.requirements request'
    rw [hr, hr'] at htypes hdependencies
    simp only at htypes hdependencies
    rw [htypes, hdependencies]
  simp only [compileWith, htext, hname, hmode, hkey, hrequirements]

theorem key_of_compileWith {c : CompiledProgram} (h : config.compileWith request imports = .ok c) :
    c.key = config.keyWith request imports := by
  obtain ⟨program, -, h⟩ := bind_eq_ok.1 h
  cases h
  rfl

end CacheConfig

/-- A program that a request gives, the key of which is derived from inputs that occur. -/
def CompiledProgram.IsMade (Occurs : KeyInputs → Prop) (c : CompiledProgram) : Prop :=
  ∃ (config : CacheConfig) (tree : FileTree) (request : TemplateRequest) (imports : List ImportedSource),
    config.importsOf tree request = .ok imports ∧ Occurs (config.keyInputs request imports) ∧
      config.compileWith request imports = .ok c

/-- What is relied on for the key inputs that occur: their lengths fit in 64 bits, as those of texts in
memory do, their digests do not collide, and a program that is made for them reads back as it was written
or not at all. -/
structure Reliable (Occurs : KeyInputs → Prop) : Prop where
  fits : ∀ x, Occurs x → x.Fits
  collisionFree : ∀ x y, Occurs x → Occurs y →
    Sha256.digest x.octets = Sha256.digest y.octets → x.octets = y.octets
  decodes : ∀ c : CompiledProgram, c.IsMade Occurs →
    CompiledProgram.decode? c.encode = none ∨ CompiledProgram.decode? c.encode = some c

namespace CompiledProgram.IsMade

variable {Occurs : KeyInputs → Prop} {c : CompiledProgram}

/-- The key determines the program. -/
theorem compileWith_eq (hr : Reliable Occurs) (hc : c.IsMade Occurs) {config : CacheConfig}
    {tree : FileTree} {request : TemplateRequest} {imports : List ImportedSource}
    (hi : config.importsOf tree request = .ok imports) (ho : Occurs (config.keyInputs request imports))
    (hk : c.key = config.keyWith request imports) : config.compileWith request imports = .ok c := by
  obtain ⟨other, tree', request', imports', hi', ho', hc⟩ := hc
  rw [CacheConfig.key_of_compileWith hc, CacheConfig.keyWith_eq, CacheConfig.keyWith_eq] at hk
  have hinputs := KeyInputs.octets_inj (hr.fits _ ho') (hr.fits _ ho)
    (hr.collisionFree _ _ ho' ho (TemplateKey.digest_eq_of_derive hk))
  -- equal inputs need not mean equal providers, only that these found the same imports
  obtain rfl := CacheConfig.imports_eq hi' hi hinputs
  rw [← hc, CacheConfig.compileWith_congr hinputs]

/-- What is recovered from the file of a program is the program. -/
theorem recover?_eq (hr : Reliable Occurs) (hc : c.IsMade Occurs) {pattern : FilePattern}
    {recovered : CompiledProgram}
    (h : pattern.recover? (pattern.fileName c.key.text, c.encode) = some recovered) : recovered = c := by
  obtain ⟨config, tree, request, imports, -, -, hmade⟩ := id hc
  have hkey := CacheConfig.key_of_compileWith hmade
  unfold FilePattern.recover? at h
  rw [hkey, CacheConfig.keyWith_eq, FilePattern.key?_fileName _ (TemplateKey.parse?_derive _)] at h
  simp only [Option.bind_eq_bind, Option.bind_some] at h
  rcases hr.decodes c hc with hd | hd
  · rw [hd] at h; cases h
  · rw [hd, Option.bind_some] at h
    split at h <;> cases h
    rw [← CacheConfig.keyWith_eq, ← hkey]

end CompiledProgram.IsMade

/-! ### Right caches -/

namespace Cache

variable {Occurs : KeyInputs → Prop} {cache : Cache} {tree : FileTree} {request : TemplateRequest}
  {compiled : CompiledProgram} {key : String} {entry : CompiledTemplate}

/-- Every entry is a program that a request gives, under its own key and ready to render. -/
def IsRight (Occurs : KeyInputs → Prop) (cache : Cache) : Prop :=
  ∀ (key : String) (entry : CompiledTemplate), cache.entries.get? key = some entry →
    entry.compiled.key.text = key ∧ entry.compiled.IsMade Occurs ∧
      entry.compiled.program.accept entry.compiled.requirements = .ok entry.template

theorem isRight_empty (config : CacheConfig) : (empty config).IsRight Occurs :=
  fun _ _ h => by cases h

/-- A program that is made ready to render becomes an entry, and nothing else changes. -/
theorem get?_accept (h : (cache.accept compiled).2.entries.get? key = some entry) :
    cache.entries.get? key = some entry ∨ key = compiled.key.text ∧ entry.compiled = compiled ∧
      compiled.program.accept compiled.requirements = .ok entry.template := by
  unfold accept at h
  split at h
  · exact .inl h
  · rename_i template ha
    simp only [Fields.get?_insert] at h
    split at h
    · rename_i hk
      cases h
      exact .inr ⟨hk, rfl, ha⟩
    · exact .inl h

theorem entries_accept_error {fault : TemplateFault}
    (h : compiled.program.accept compiled.requirements = .error fault) :
    (cache.accept compiled).2.entries = cache.entries := by
  simp only [accept, h]

@[simp] theorem config_accept : (cache.accept compiled).2.config = cache.config := by
  unfold accept
  split <;> rfl

theorem accept_eq : cache.accept compiled =
    (CompiledTemplate.mk compiled <$> compiled.program.accept compiled.requirements,
      (cache.accept compiled).2) := by
  unfold accept
  split <;> rename_i h <;> rw [h] <;> rfl

theorem IsRight.accept (hc : cache.IsRight Occurs) (hm : compiled.IsMade Occurs) :
    (cache.accept compiled).2.IsRight Occurs := by
  intro key entry h
  obtain h | ⟨rfl, rfl, ha⟩ := get?_accept h
  · exact hc _ _ h
  · exact ⟨rfl, hm, ha⟩

/-! ### Taking over what the storage keeps -/

theorem foldl_accept {P : Cache → Prop} {programs : List CompiledProgram} (h : P cache)
    (hs : ∀ cache, ∀ c ∈ programs, P cache → P (cache.accept c).2) :
    P (programs.foldl (fun cache c => (cache.accept c).2) cache) := by
  induction programs generalizing cache with
  | nil => exact h
  | cons c programs ih =>
    rw [List.foldl_cons]
    exact ih (hs _ c (by simp) h) fun cache d hd => hs cache d (by simp [hd])

@[simp] theorem config_ensureRecovered : (cache.ensureRecovered tree).config = cache.config := by
  unfold ensureRecovered
  split
  · rfl
  · exact foldl_accept (P := fun c => c.config = cache.config) rfl fun _ _ _ h => by
      rw [config_accept, h]

/-- Entries are not taken over but once, and from the storage. -/
theorem get?_ensureRecovered (h : (cache.ensureRecovered tree).entries.get? key = some entry) :
    cache.entries.get? key = some entry ∨
      cache.recovered = false ∧ entry.compiled ∈ cache.config.storage.recover tree := by
  unfold ensureRecovered at h
  split at h
  · exact .inl h
  · rename_i hr
    revert h
    refine foldl_accept (P := fun c => c.entries.get? key = some entry → _) .inl
      fun c program hp ih h => ?_
    obtain h | ⟨-, rfl, -⟩ := get?_accept h
    · exact ih h
    · exact .inr ⟨by simpa using hr, hp⟩

theorem IsRight.ensureRecovered (hc : cache.IsRight Occurs)
    (hs : ∀ c ∈ cache.config.storage.recover tree, c.IsMade Occurs) :
    (cache.ensureRecovered tree).IsRight Occurs := by
  unfold Cache.ensureRecovered
  split
  · exact hc
  · exact foldl_accept (P := IsRight Occurs) hc fun _ c hm h => h.accept (hs c hm)

/-! ### Compiling -/

/-- What can come of compiling. -/
inductive Compiles (cache : Cache) (tree : FileTree) (request : TemplateRequest) :
    Except TemplateFault CompiledTemplate × Cache × FileTree → Prop
  | noImports {fault : TemplateFault} (hi : cache.config.importsOf tree request = .error fault) :
      Compiles cache tree request (.error fault, cache, tree)
  | held {imports : List ImportedSource} {entry : CompiledTemplate}
      (hi : cache.config.importsOf tree request = .ok imports)
      (hk : (cache.ensureRecovered tree).entries.get? (cache.config.keyWith request imports).text =
        some entry) :
      Compiles cache tree request (.ok entry, cache.ensureRecovered tree, tree)
  | notCompiled {imports : List ImportedSource} {fault : TemplateFault}
      (hi : cache.config.importsOf tree request = .ok imports)
      (hc : cache.config.compileWith request imports = .error fault) :
      Compiles cache tree request (.error fault, cache.ensureRecovered tree, tree)
  | refused {imports : List ImportedSource} {compiled : CompiledProgram} {fault : TemplateFault}
      (hi : cache.config.importsOf tree request = .ok imports)
      (hc : cache.config.compileWith request imports = .ok compiled)
      (ha : compiled.program.accept compiled.requirements = .error fault) :
      Compiles cache tree request
        (.error fault, ((cache.ensureRecovered tree).accept compiled).2, tree)
  | made {imports : List ImportedSource} {compiled : CompiledProgram} {template : Template}
      (hi : cache.config.importsOf tree request = .ok imports)
      (hc : cache.config.compileWith request imports = .ok compiled)
      (ha : compiled.program.accept compiled.requirements = .ok template) :
      Compiles cache tree request (.ok ⟨compiled, template⟩,
        ((cache.ensureRecovered tree).accept compiled).2, cache.config.storage.persist tree compiled)

theorem compiles (cache : Cache) (tree : FileTree) (request : TemplateRequest) :
    cache.Compiles tree request (cache.compile tree request) := by
  unfold compile
  split
  · rename_i hi
    exact .noImports hi
  · rename_i imports hi
    simp only [config_ensureRecovered]
    split
    · rename_i hk
      exact .held hi hk
    · split
      · rename_i hc
        exact .notCompiled hi hc
      · rename_i compiled hc
        rw [accept_eq]
        cases ha : compiled.program.accept compiled.requirements with
        | error fault => exact .refused hi hc ha
        | ok template => simpa using Compiles.made hi hc ha

theorem config_compile : (cache.compile tree request).2.1.config = cache.config := by
  generalize hr : cache.compile tree request = result
  have h := hr ▸ cache.compiles tree request
  cases h <;> simp

/-- Compiling gives the answer to a request if what is held under its key is the answer. -/
theorem compile_eq_answer (h : ∀ imports entry, cache.config.importsOf tree request = .ok imports →
      (cache.ensureRecovered tree).entries.get? (cache.config.keyWith request imports).text = some entry →
        cache.config.answer tree request = .ok entry) :
    (cache.compile tree request).1 = cache.config.answer tree request := by
  generalize hres : cache.compile tree request = result
  have hc := hres ▸ cache.compiles tree request
  cases hc with
  | noImports hi => rw [CacheConfig.answer, hi]; rfl
  | held hi hk => exact (h _ _ hi hk).symm
  | notCompiled hi hc => rw [CacheConfig.answer_of_imports hi, hc]; rfl
  | refused hi hc ha => rw [CacheConfig.answer_of_compiled hi hc, ha]; rfl
  | made hi hc ha => rw [CacheConfig.answer_of_compiled hi hc, ha]; rfl

theorem IsRight.compile_fst (hr : Reliable Occurs) (hc : (cache.ensureRecovered tree).IsRight Occurs)
    (ho : cache.config.KeyOccurs Occurs tree request) :
    (cache.compile tree request).1 = cache.config.answer tree request := by
  refine compile_eq_answer fun imports entry hi hk => ?_
  obtain ⟨hkey, hm, ha⟩ := hc _ _ hk
  have hcw := hm.compileWith_eq hr hi (ho _ hi) (TemplateKey.mk.injEq .. ▸ hkey)
  rw [CacheConfig.answer_of_compiled hi hcw, ha]
  rfl

/-- So does a fresh cache that keeps nothing. -/
theorem compile_inMemory (config : CacheConfig) (tree : FileTree) (request : TemplateRequest) :
    ((empty config.inMemory).compile tree request).1 = config.answer tree request :=
  compile_eq_answer fun _ _ _ hk => by cases hk

/-- A right cache stays right. -/
theorem IsRight.compile_snd (hw : cache.IsRight Occurs)
    (hc : (cache.ensureRecovered tree).IsRight Occurs) (ho : cache.config.KeyOccurs Occurs tree request) :
    (cache.compile tree request).2.1.IsRight Occurs := by
  generalize hres : cache.compile tree request = result
  have h := hres ▸ cache.compiles tree request
  cases h with
  | noImports => exact hw
  | held | notCompiled => exact hc
  | refused hi hcw | made hi hcw => exact hc.accept ⟨_, _, _, _, hi, ho _ hi, hcw⟩

/-- Compiling stores no file but that of a program that is made. -/
theorem mem_stored_compile (ho : cache.config.KeyOccurs Occurs tree request) {file : String × Octets}
    (h : file ∈ cache.config.storage.stored (cache.compile tree request).2.2) :
    file ∈ cache.config.storage.stored tree ∨ ∃ directory pattern c,
      cache.config.storage = .files directory pattern ∧ CompiledProgram.IsMade Occurs c ∧
        file = (pattern.fileName c.key.text, c.encode) := by
  revert h
  generalize hres : cache.compile tree request = result
  have hc := hres ▸ cache.compiles tree request
  cases hc with
  | noImports | held | notCompiled | refused => exact .inl
  | made hi hcw ha =>
    intro h
    obtain h | ⟨directory, pattern, hs, rfl⟩ := Storage.mem_stored_persist h
    · exact .inl h
    · exact .inr ⟨directory, pattern, _, hs, ⟨_, _, _, _, hi, ho _ hi, hcw⟩, rfl⟩

/-- Without a key, nothing changes. -/
theorem compile_of_importsOf {fault : TemplateFault}
    (h : cache.config.importsOf tree request = .error fault) :
    cache.compile tree request = (.error fault, cache, tree) := by
  unfold compile
  rw [h]

/-- A request that fails stores no file, and all entries after it were there or are taken over. -/
theorem compile_error {fault : TemplateFault} (h : (cache.compile tree request).1 = .error fault) :
    (cache.compile tree request).2.2 = tree ∧ ∀ key entry,
      (cache.compile tree request).2.1.entries.get? key = some entry →
        cache.entries.get? key = some entry ∨
          cache.recovered = false ∧ entry.compiled ∈ cache.config.storage.recover tree := by
  revert h
  generalize hres : cache.compile tree request = result
  have hc := hres ▸ cache.compiles tree request
  cases hc with
  | noImports => exact fun _ => ⟨rfl, fun _ _ => .inl⟩
  | held | made => exact fun h => by cases h
  | notCompiled => exact fun _ => ⟨rfl, fun _ _ => get?_ensureRecovered⟩
  | refused _ _ ha =>
    refine fun _ => ⟨rfl, fun _ _ h => ?_⟩
    rw [entries_accept_error ha] at h
    exact get?_ensureRecovered h

end Cache

end MarkupTemplate
