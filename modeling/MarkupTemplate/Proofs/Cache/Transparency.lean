import Mathlib.Logic.Relation
import MarkupTemplate.Proofs.Cache.Entries

/-!
# Caches that share a storage

Caches are opened and dropped, imports change, and caches are called, in any order. Whatever is stored
then is a program that some request gave, under its own key, and every cache is right
(`Service.Sound.of_reachable`). So each call has the reply of a fresh cache that keeps nothing
(`Service.reply_eq_inMemory`).
-/

namespace MarkupTemplate

/-- What a cache can be asked for. -/
inductive CacheCall where
  | compile (request : TemplateRequest)
  | render (request : TemplateRequest) (globals : Frame)

/-- The request that is compiled. -/
def CacheCall.request : CacheCall → TemplateRequest
  | compile request => request
  | render request globals => Cache.declareGlobals request globals

/-- What comes back from a cache. -/
inductive CacheReply where
  | program (result : Except TemplateFault CompiledTemplate)
  | text (result : Except TemplateFault String)

namespace Cache

variable {cache other : Cache} {tree : FileTree} {call : CacheCall}

/-- Asks a cache. -/
def reply (cache : Cache) (tree : FileTree) : CacheCall → CacheReply × Cache × FileTree
  | .compile request => (cache.compile tree request).map .program id
  | .render request globals => (cache.render tree request globals).map .text id

theorem render_eq {request : TemplateRequest} {globals : Frame} :
    cache.render tree request globals =
      (cache.compile tree (declareGlobals request globals)).map
        (fun result => do
          let entry ← result
          (entry.template.render plainText globals).mapError .render) id := by
  unfold render
  generalize cache.compile tree (declareGlobals request globals) = result
  obtain ⟨_ | entry, cache, tree⟩ := result
  · rfl
  · simp only
    split <;> rename_i h <;> simp [h, Except.mapError, bind, Except.bind]

/-- A reply depends on what compiling gives, and a call changes what compiling changes. -/
theorem reply_fst_congr
    (h : (cache.compile tree call.request).1 = (other.compile tree call.request).1) :
    (cache.reply tree call).1 = (other.reply tree call).1 := by
  cases call with
  | compile request => exact congrArg CacheReply.program h
  | render request globals =>
    simp only [reply, render_eq, Prod.map_fst]
    rw [CacheCall.request] at h
    rw [h]

theorem reply_snd : (cache.reply tree call).2 = (cache.compile tree call.request).2 := by
  cases call with
  | compile request => rfl
  | render request globals => simp only [reply, render_eq, Prod.map_snd, id, CacheCall.request]

end Cache

/-- Caches and the files that they share. -/
structure Service where
  caches : List Cache
  tree : FileTree

/-- Octets are read as a program through their characters. -/
theorem CompiledProgram.decode?_eq (octets : Octets) : decode? octets =
    (Text.decodeUtf8From 0 none octets).toOption.bind fun cs =>
      (Json.value? (cs.length + 1) Json.depthLimit (Json.skipGap cs)).bind fun r =>
        if (Json.skipGap r.2).isEmpty then ofJson? r.1 else none := by
  unfold decode? Text.decodeUtf8
  cases Text.decodeUtf8From 0 none octets with
  | error fault => rfl
  | ok cs =>
    simp only [Functor.map, Except.map, Json.read?, String.toList_ofList, Except.toOption,
      Option.bind_some, Option.bind_eq_bind, Option.bind_assoc]
    congr 1
    funext r
    split <;> rfl

namespace Service

variable {Occurs : KeyInputs → Prop} {storage : Storage} {service service' : Service} {cache : Cache}
  {call : CacheCall}

/-- What can happen to caches with one storage. Only their calls add to what is stored. -/
inductive Step (Occurs : KeyInputs → Prop) (storage : Storage) : Service → Service → Prop
  | opened (service : Service) (config : CacheConfig) (hs : config.storage = storage) :
      Step Occurs storage service ⟨.empty config :: service.caches, service.tree⟩
  | dropped (before after : List Cache) (cache : Cache) (tree : FileTree) :
      Step Occurs storage ⟨before ++ cache :: after, tree⟩ ⟨before ++ after, tree⟩
  | importsChanged (before after : List Cache) (cache : Cache) (tree : FileTree) (imports : ImportSource) :
      Step Occurs storage ⟨before ++ cache :: after, tree⟩
        ⟨before ++ { cache with config := { cache.config with imports } } :: after, tree⟩
  | filesChanged (caches : List Cache) (tree tree' : FileTree)
      (h : ∀ file ∈ storage.stored tree', file ∈ storage.stored tree) :
      Step Occurs storage ⟨caches, tree⟩ ⟨caches, tree'⟩
  | called (before after : List Cache) (cache : Cache) (tree : FileTree) (call : CacheCall)
      (ho : cache.config.KeyOccurs Occurs tree call.request) :
      Step Occurs storage ⟨before ++ cache :: after, tree⟩
        ⟨before ++ (cache.reply tree call).2.1 :: after, (cache.reply tree call).2.2⟩

/-- Every cache is right and uses the storage, and what can be recovered was made. -/
structure Sound (Occurs : KeyInputs → Prop) (storage : Storage) (service : Service) : Prop where
  caches : ∀ cache ∈ service.caches, cache.config.storage = storage ∧ cache.IsRight Occurs
  stored : ∀ file ∈ storage.stored service.tree, ∀ c, storage.recover? file = some c → c.IsMade Occurs

namespace Sound

/-- Caches that have nothing stored yet. -/
theorem init {tree : FileTree} (h : ∀ file ∈ storage.stored tree, storage.recover? file = none) :
    Sound Occurs storage ⟨[], tree⟩ := by
  refine ⟨fun _ hc => absurd hc List.not_mem_nil, fun file hf c hr => ?_⟩
  rw [h file hf] at hr
  cases hr

variable {caches : List Cache} {tree : FileTree}

theorem ensureRecovered (h : Sound Occurs storage ⟨caches, tree⟩) (hc : cache ∈ caches) :
    (cache.ensureRecovered tree).IsRight Occurs := by
  obtain ⟨rfl, hw⟩ := h.caches cache hc
  refine hw.ensureRecovered fun c hm => ?_
  obtain ⟨file, hf, hr⟩ := Storage.exists_of_mem_recover hm
  exact h.stored file hf c hr

/-- The file that a call stores is recovered as what was made, if at all. -/
theorem stored_reply (hr : Reliable Occurs) (h : Sound Occurs storage ⟨caches, tree⟩)
    (hc : cache ∈ caches) (ho : cache.config.KeyOccurs Occurs tree call.request) :
    ∀ file ∈ storage.stored (cache.reply tree call).2.2, ∀ c,
      storage.recover? file = some c → c.IsMade Occurs := by
  obtain ⟨rfl, -⟩ := h.caches cache hc
  intro file hf c hrec
  rw [Cache.reply_snd] at hf
  obtain hf | ⟨directory, pattern, made, hs, hm, rfl⟩ := Cache.mem_stored_compile ho hf
  · exact h.stored file hf c hrec
  · -- the file that was written goes by the key of what was made
    rw [hs] at hrec
    rw [hm.recover?_eq hr hrec]
    exact hm

/-- A cache that a call leaves is right and set up as before. -/
theorem cache_reply (h : Sound Occurs storage ⟨caches, tree⟩) (hc : cache ∈ caches)
    (ho : cache.config.KeyOccurs Occurs tree call.request) :
    (cache.reply tree call).2.1.config.storage = storage ∧
      (cache.reply tree call).2.1.IsRight Occurs := by
  rw [Cache.reply_snd, Cache.config_compile]
  exact ⟨(h.caches cache hc).1, (h.caches cache hc).2.compile_snd (h.ensureRecovered hc) ho⟩

/-- Nothing that can happen makes a cache wrong. -/
theorem step (hr : Reliable Occurs) (h : service.Sound Occurs storage)
    (hs : Step Occurs storage service service') : service'.Sound Occurs storage := by
  cases hs with
  | opened _ _ hs => exact ⟨List.forall_mem_cons.2 ⟨⟨hs, Cache.isRight_empty _⟩, h.caches⟩, h.stored⟩
  | dropped =>
    have hb := List.forall_mem_append.1 h.caches
    have ha := List.forall_mem_cons.1 hb.2
    exact ⟨List.forall_mem_append.2 ⟨hb.1, ha.2⟩, h.stored⟩
  | importsChanged =>
    have hb := List.forall_mem_append.1 h.caches
    have ha := List.forall_mem_cons.1 hb.2
    exact ⟨List.forall_mem_append.2 ⟨hb.1, List.forall_mem_cons.2 ha⟩, h.stored⟩
  | filesChanged _ _ _ hf => exact ⟨h.caches, fun file hm => h.stored file (hf file hm)⟩
  | called before after cache tree call ho =>
    have hb := List.forall_mem_append.1 h.caches
    have ha := List.forall_mem_cons.1 hb.2
    have hm : cache ∈ before ++ cache :: after := List.mem_append_right _ (List.mem_cons_self ..)
    refine ⟨?_, h.stored_reply hr hm ho⟩
    exact List.forall_mem_append.2 ⟨hb.1, List.forall_mem_cons.2 ⟨h.cache_reply hm ho, ha.2⟩⟩

theorem of_reachable (hr : Reliable Occurs) (h : service.Sound Occurs storage)
    (hs : Relation.ReflTransGen (Step Occurs storage) service service') :
    service'.Sound Occurs storage := by
  induction hs with
  | refl => exact h
  | tail _ hs ih => exact ih.step hr hs

end Sound

/-- Each call has the reply of a fresh cache that keeps nothing. A request without a key changes nothing,
and one that is not compiled adds no file and no entry but those that are taken over. -/
theorem reply_eq_inMemory (hr : Reliable Occurs) {tree : FileTree}
    (h0 : ∀ file ∈ storage.stored tree, storage.recover? file = none)
    (hs : Relation.ReflTransGen (Step Occurs storage) ⟨[], tree⟩ service) (hc : cache ∈ service.caches)
    (ho : cache.config.KeyOccurs Occurs service.tree call.request) :
    (cache.reply service.tree call).1 =
        ((Cache.empty cache.config.inMemory).reply service.tree call).1 ∧
      (∀ fault, cache.config.keyFor service.tree call.request = .error fault →
        (cache.reply service.tree call).2 = (cache, service.tree)) ∧
      ∀ fault, (cache.compile service.tree call.request).1 = .error fault →
        (cache.reply service.tree call).2.2 = service.tree ∧ ∀ key entry,
          (cache.reply service.tree call).2.1.entries.get? key = some entry →
            cache.entries.get? key = some entry ∨
              cache.recovered = false ∧ entry.compiled ∈ storage.recover service.tree := by
  have h := (Sound.init h0).of_reachable hr hs
  obtain ⟨rfl, -⟩ := h.caches cache hc
  refine ⟨Cache.reply_fst_congr ?_, fun fault hk => ?_, fun fault hf => ?_⟩
  · rw [(h.ensureRecovered hc).compile_fst hr ho, Cache.compile_inMemory]
  · have hi : cache.config.importsOf service.tree call.request = .error fault := by
      unfold CacheConfig.keyFor at hk
      cases hi : cache.config.importsOf service.tree call.request with
      | ok imports => rw [hi] at hk; cases hk
      | error other => rw [hi] at hk; cases hk; rfl
    rw [Cache.reply_snd, Cache.compile_of_importsOf hi]
  · rw [Cache.reply_snd]
    exact Cache.compile_error hf

/-! ### A cache that is opened again -/

/-- Caches that keep the programs of texts in a directory. -/
def keptTexts : CacheConfig := ⟨.text, .none, [], .files "kept" ⟨[], []⟩⟩

/-- A text of one letter. -/
def letter : TemplateRequest := ⟨"a", none, ⟨[], []⟩, []⟩

/-- Its program. -/
def letterProgram : CompiledProgram :=
  ⟨keptTexts.keyWith letter [], ⟨[.literal "a"], [], []⟩, generatorVersion, ⟨[], []⟩⟩

/-- The only key inputs that occur when nothing but this text is asked for. -/
def IsLetter (inputs : KeyInputs) : Prop := inputs = keptTexts.keyInputs letter []

theorem keyOccurs_letter (tree : FileTree) : keptTexts.KeyOccurs IsLetter tree letter := by
  intro imports hi
  cases hi
  rfl

theorem eq_letterProgram {c : CompiledProgram} (h : c.IsMade IsLetter) : c = letterProgram := by
  obtain ⟨config, tree, request, imports, hi, ho, hc⟩ := h
  have hi' : keptTexts.importsOf .empty letter = .ok [] := rfl
  obtain rfl := CacheConfig.imports_eq hi hi' ho
  rw [CacheConfig.compileWith_congr ho] at hc
  exact (Except.ok.inj hc).symm

/-- The text that a program writes, if it writes one and no more. -/
def onlyText? : Program → Option String
  | ⟨[.literal s], [], []⟩ => some s
  | _ => none

theorem eq_of_onlyText? {p : Program} {s : String} (h : onlyText? p = some s) :
    p = ⟨[.literal s], [], []⟩ := by
  unfold onlyText? at h
  split at h
  · cases h
    rfl
  · cases h

theorem decode?_letterProgram : CompiledProgram.decode? letterProgram.encode = some letterProgram := by
  have h : (CompiledProgram.decode? letterProgram.encode).any fun c =>
      c.key = letterProgram.key ∧ onlyText? c.program = some "a" ∧
        c.generator = generatorVersion ∧ c.requirements = ⟨[], []⟩ := by
    rw [CompiledProgram.decode?_eq, CompiledProgram.encode, Text.encodeUtf8_eq]
    decide +kernel
  obtain ⟨⟨key, program, generator, requirements⟩, hd, h⟩ := (Option.any_eq_true ..).1 h
  simp only [decide_eq_true_eq] at h
  obtain ⟨rfl, hp, rfl, rfl⟩ := h
  rw [hd, eq_of_onlyText? hp]
  rfl

theorem reliable_letter : Reliable IsLetter where
  fits := by
    rintro x rfl
    refine ⟨by decide +kernel, fun name h => ?_, by decide +kernel, by decide +kernel, by decide +kernel⟩
    cases h
  collisionFree := by
    rintro x y rfl rfl -
    rfl
  decodes c hc := by
    rw [eq_letterProgram hc]
    exact .inr decode?_letterProgram

theorem reply_eq_inMemory_reopened : ∃ tree,
    ((Cache.empty keptTexts).reply .empty (.compile letter)).2.2 = tree ∧
      ((Cache.empty keptTexts).reply tree (.render letter [])).1 =
        ((Cache.empty keptTexts.inMemory).reply tree (.render letter [])).1 := by
  refine ⟨_, rfl, ?_⟩
  have hopen (tree : FileTree) :
      Step IsLetter keptTexts.storage ⟨[], tree⟩ ⟨[.empty keptTexts], tree⟩ := .opened _ _ rfl
  have hdrop (cache : Cache) (tree : FileTree) :
      Step IsLetter keptTexts.storage ⟨[cache], tree⟩ ⟨[], tree⟩ := .dropped [] [] _ _
  have hcall : Step IsLetter keptTexts.storage ⟨[.empty keptTexts], .empty⟩ _ :=
    .called [] [] _ _ (.compile letter) (keyOccurs_letter _)
  have hagain (tree : FileTree) : (Cache.empty keptTexts).config.KeyOccurs IsLetter tree
      (CacheCall.render letter []).request := keyOccurs_letter tree
  have hsteps := Relation.ReflTransGen.tail
    (.tail (.tail (.single (hopen .empty)) hcall) (hdrop _ _)) (hopen _)
  exact (reply_eq_inMemory reliable_letter (fun _ hf => by cases hf) hsteps
    (List.mem_singleton.2 rfl) (hagain _)).1

end Service

end MarkupTemplate
