import MarkupTemplate.Proofs.Storage.Recovery

/-!
# One program for each key

A program that is kept takes the place of the one with its key, and of no other (`FilePattern.recovered_keep`).
So of programs that are kept one after another the last one of each key is recovered, and what else is recovered
was there before, in the file of its key (`Storage.recovered_foldl`). All other files stay as they were
(`Storage.unchanged_foldl`).
-/

namespace MarkupTemplate

/-- A program of this version, with a key, that reads back as it was. -/
structure CompiledProgram.IsStorable (c : CompiledProgram) : Prop where
  key : c.key.IsKey
  version : c.generator = generatorVersion
  reads : decode? c.encode = some c

namespace FilePattern

variable {p : FilePattern} {files : List (String × Octets)} {c : CompiledProgram} {key : TemplateKey}
  {programs : List CompiledProgram}

/-- A pattern is a text around its placeholder, and a file name has the key there and no slash. -/
theorem fileName_of_parse {text : String} (h : parse text = .ok p) :
    text = String.ofList p.front ++ keyPlaceholder ++ String.ofList p.back ∧
      (∀ key, p.fileName key = String.ofList p.front ++ key ++ String.ofList p.back) ∧
      ∀ key : TemplateKey, key.IsKey → '/' ∉ (p.fileName key.text).toList := by
  unfold parse at h
  split at h
  · cases h
  · next front back haround =>
    have htext : text.toList = front ++ keyPlaceholder.toList ++ back := Text.splitAround?_append haround
    split at h
    · cases h
    · split at h <;> cases h
      next hslash =>
      refine ⟨?_, fun key => ?_, fun key hkey => ?_⟩
      · refine String.toList_injective ?_
        simp [htext]
      · refine String.toList_injective ?_
        simp [fileName]
      · have hfront : '/' ∉ front ∧ '/' ∉ back := by
          constructor
          all_goals
            intro hmem
            exact hslash (List.any_eq_true.2 ⟨'/', by simp [htext, hmem], rfl⟩)
        have hdigits : '/' ∉ key.text.toList := by
          intro hmem
          unfold TemplateKey.IsKey TemplateKey.parse? at hkey
          split at hkey
          · next hparse =>
            have hall := (Bool.and_eq_true_iff.1 hparse).2
            exact absurd (List.all_eq_true.1 hall _ hmem) (by decide)
          · cases hkey
        simp [fileName, hfront, hdigits]

/-- The programs that are recovered from files under a key. -/
def recovered (p : FilePattern) (files : List (String × Octets)) (key : TemplateKey) : List CompiledProgram :=
  (files.filterMap p.recover?).filter (·.key = key)

/-- The file names of keys are as different as the keys are. -/
theorem fileName_inj {other : TemplateKey} : p.fileName other.text = p.fileName key.text ↔ other = key := by
  refine ⟨fun h => ?_, fun h => by rw [h]⟩
  have htext := congrArg p.middle? h
  rw [middle?_fileName, middle?_fileName] at htext
  exact congrArg TemplateKey.mk (Option.some.inj htext)

/-- Without the file of a key everything is recovered but what goes by the key. -/
theorem recover?_others (p : FilePattern) (files : List (String × Octets)) (key : TemplateKey) :
    (files.filter (·.1 != p.fileName key.text)).filterMap p.recover? =
      (files.filterMap p.recover?).filter (·.key ≠ key) := by
  rw [List.filterMap_filter, List.filter_filterMap]
  refine List.filterMap_congr fun file _ => ?_
  cases hr : p.recover? file with
  | none => simp
  | some c =>
    rw [← fileName_of_key? (key?_of_recover? hr)]
    by_cases hkey : c.key = key
    · simp [Option.filter, hkey]
    · simp [Option.filter, hkey, fileName_inj]

/-- What is recovered under a key is the program that was kept with it, or else what was recovered before. -/
theorem recovered_keep (hc : c.IsStorable) (files : List (String × Octets)) (key : TemplateKey) :
    p.recovered (p.keep files c) key = if c.key = key then [c] else p.recovered files key := by
  have hown : [(p.fileName c.key.text, c.encode)].filterMap p.recover? = [c] := by
    rw [List.filterMap_cons, p.recover?_own hc.key hc.version hc.reads, List.filterMap_nil]
  rw [recovered, keep, List.filterMap_append, List.filter_append, hown, recover?_others, List.filter_filter]
  split
  · next hkey =>
    subst hkey
    simp
  · next hkey =>
    have hnone : [c].filter (·.key = key) = [] := by simp [hkey]
    rw [hnone, List.append_nil, recovered]
    refine List.filter_congr fun other _ => ?_
    by_cases hother : other.key = key
    · simp [hother, Ne.symm hkey]
    · simp [hother]

/-- What is recovered under a key does not change while other programs are kept. -/
theorem recovered_foldl_of_ne (hs : ∀ c ∈ programs, c.IsStorable) (hne : ∀ c ∈ programs, c.key ≠ key)
    (files : List (String × Octets)) : p.recovered (programs.foldl p.keep files) key = p.recovered files key := by
  induction programs generalizing files with
  | nil => rfl
  | cons c programs ih =>
    obtain ⟨hc, hs⟩ := List.forall_mem_cons.1 hs
    obtain ⟨hkey, hne⟩ := List.forall_mem_cons.1 hne
    rw [List.foldl_cons, ih hs hne, recovered_keep hc, if_neg hkey]

/-- Under each key the last program is recovered that was kept with it. -/
theorem recovered_foldl {before after : List CompiledProgram} (hs : ∀ d ∈ before ++ c :: after, d.IsStorable)
    (hlast : ∀ d ∈ after, d.key ≠ c.key) (files : List (String × Octets)) :
    p.recovered ((before ++ c :: after).foldl p.keep files) c.key = [c] := by
  rw [List.foldl_append, List.foldl_cons,
    recovered_foldl_of_ne (fun d hd => hs d (by simp [hd])) hlast, recovered_keep (hs c (by simp)), if_pos rfl]

/-- A program is recovered from the file of its key, of which it is all but the key. -/
theorem exists_of_recover? {file : String × Octets} (h : p.recover? file = some c) :
    file.1 = p.fileName c.key.text ∧ ∃ stored, CompiledProgram.decode? file.2 = some stored ∧
      stored.generator = generatorVersion ∧ c = { stored with key := c.key } := by
  refine ⟨(fileName_of_key? (key?_of_recover? h)).symm, ?_⟩
  unfold recover? at h
  obtain ⟨key, -, h⟩ := Option.bind_eq_some_iff.1 h
  obtain ⟨stored, hstored, h⟩ := Option.bind_eq_some_iff.1 h
  split at h
  · next hversion =>
    cases h
    exact ⟨stored, hstored, hversion, rfl⟩
  · cases h

end FilePattern

namespace Storage

variable {directory : String} {pattern : FilePattern} {tree : FileTree} {c : CompiledProgram}
  {programs : List CompiledProgram}

/-- No file operation fails while programs are kept one after another. -/
def allWritten (directory : String) (pattern : FilePattern) : FileTree → List CompiledProgram → Bool
  | _, [] => true
  | tree, c :: programs =>
    match tree.writeIn directory (pattern.fileName c.key.text) c.encode with
    | .ok written => allWritten directory pattern written programs
    | .error _ => false

theorem allWritten_cons (h : allWritten directory pattern tree (c :: programs)) : ∃ written,
    tree.writeIn directory (pattern.fileName c.key.text) c.encode = .ok written ∧
      (files directory pattern).persist tree c = written ∧ allWritten directory pattern written programs := by
  unfold allWritten at h
  split at h
  · next written hw => exact ⟨written, hw, by simp only [persist, hw], h⟩
  · cases h

/-- The directory of programs that were kept is found, but for the empty path. -/
theorem isDirectory_foldl (hne : directory ≠ "") (h : allWritten directory pattern tree programs)
    (hsome : programs ≠ []) : (programs.foldl (files directory pattern).persist tree).isDirectory directory := by
  induction programs generalizing tree with
  | nil => exact absurd rfl hsome
  | cons c programs ih =>
    obtain ⟨written, hw, hpersist, hrest⟩ := allWritten_cons h
    rw [List.foldl_cons, hpersist]
    cases programs with
    | nil =>
      obtain ⟨hplace, hdirectory⟩ := FileTree.place_writeIn hne hw
      rw [List.foldl_nil, FileTree.isDirectory, hplace]
      exact hdirectory
    | cons next rest => exact ih hrest (by simp)

/-- The stored files change as the files of one directory do. -/
theorem stored_foldl (h : allWritten directory pattern tree programs) :
    (files directory pattern).stored (programs.foldl (files directory pattern).persist tree) =
      programs.foldl pattern.keep ((files directory pattern).stored tree) := by
  induction programs generalizing tree with
  | nil => rfl
  | cons c programs ih =>
    obtain ⟨written, hw, hpersist, hrest⟩ := allWritten_cons h
    rw [List.foldl_cons, hpersist, ih hrest, stored_persist hw, List.foldl_cons]

/-- Keeping programs leaves every file as it was but those of their keys. -/
theorem unchanged_foldl (h : allWritten directory pattern tree programs) {folder : Place} {name : String}
    (hother : folder = tree.spelled directory → ∀ c ∈ programs, name ≠ pattern.fileName c.key.text) :
    let later := programs.foldl (files directory pattern).persist tree
    later.file? (folder ++ [name]) = tree.file? (folder ++ [name]) ∧
      (later.filesIn folder).filter (·.1 = name) = (tree.filesIn folder).filter (·.1 = name) := by
  intro later
  induction programs generalizing tree with
  | nil => exact ⟨rfl, rfl⟩
  | cons c programs ih =>
    obtain ⟨written, hw, hpersist, hrest⟩ := allWritten_cons h
    obtain ⟨hworking, hfiles, hfile⟩ := FileTree.writeIn_ok hw
    obtain ⟨hlater, hlisted⟩ := ih hrest fun hfolder d hd =>
      hother (hfolder.trans (FileTree.spelled_congr hworking directory)) d (by simp [hd])
    have hplace : folder ++ [name] ≠ tree.spelled directory ++ [pattern.fileName c.key.text] := by
      intro heq
      obtain ⟨hfolder, hname⟩ := List.append_inj' heq rfl
      exact hother hfolder c (by simp) (List.singleton_inj.1 hname)
    simp only [later, List.foldl_cons, hpersist]
    refine ⟨hlater.trans (hfile _ hplace), hlisted.trans ?_⟩
    rw [hfiles, List.filter_append, List.filter_filter]
    have hnew : (if tree.spelled directory = folder then [(pattern.fileName c.key.text, c.encode)] else []).filter
        (·.1 = name) = [] := by
      split
      · next hfolder =>
        have hne := hother hfolder.symm c (by simp)
        simp [hne.symm]
      · rfl
    rw [hnew, List.append_nil]
    refine List.filter_congr fun file _ => ?_
    by_cases hname : file.1 = name
    · simp [hname, hplace]
    · simp [hname]

theorem recover_of_isDirectory (h : tree.isDirectory directory) : (files directory pattern).recover tree =
    ((files directory pattern).stored tree).filterMap pattern.recover? := by
  unfold FileTree.isDirectory at h
  split at h
  · next place hplace => rw [recover, stored, hplace, FileTree.place_ok hplace]
  · cases h

/-- What is recovered is recovered under its key. -/
theorem mem_recovered (h : c ∈ (files directory pattern).recover tree) :
    c ∈ pattern.recovered ((files directory pattern).stored tree) c.key := by
  obtain ⟨file, hf, hr⟩ := exists_of_mem_recover h
  exact List.mem_filter.2 ⟨List.mem_filterMap.2 ⟨file, hf, hr⟩, by simp⟩

/-- Programs of this version are kept one after another in a directory that may hold anything. If they read back and
no file operation fails, neither a write nor looking for the directory afterwards, then under each of their keys
the last program is recovered that was kept with it, and only this one. What else is recovered comes from a file that
was there before, made for its key by this version. No file changes but those that go by the keys, and a file goes by
a key exactly if its name is the pattern with the key in it. -/
theorem kept_by_key {text : String} (hpattern : FilePattern.parse text = .ok pattern)
    (hprograms : ∀ c ∈ programs, c.IsStorable) (hwritten : allWritten directory pattern tree programs)
    (hfound : programs ≠ [] → (programs.foldl (files directory pattern).persist tree).isDirectory directory) :
    let storage := files directory pattern
    let later := programs.foldl storage.persist tree
    (∀ before c after, programs = before ++ c :: after → (∀ d ∈ after, d.key ≠ c.key) →
      (storage.recover later).filter (·.key = c.key) = [c]) ∧
    (∀ c ∈ storage.recover later, (∀ d ∈ programs, d.key ≠ c.key) → ∃ octets stored,
      (pattern.fileName c.key.text, octets) ∈ storage.stored tree ∧
        CompiledProgram.decode? octets = some stored ∧ stored.generator = generatorVersion ∧
          c = { stored with key := c.key }) ∧
    (∀ folder name, (folder = tree.spelled directory → ∀ c ∈ programs, pattern.key? name ≠ some c.key) →
      later.file? (folder ++ [name]) = tree.file? (folder ++ [name]) ∧
        (later.filesIn folder).filter (·.1 = name) = (tree.filesIn folder).filter (·.1 = name)) ∧
    (∀ name key, key.IsKey → (pattern.key? name = some key ↔ name = pattern.fileName key.text)) ∧
    text = String.ofList pattern.front ++ keyPlaceholder ++ String.ofList pattern.back ∧
    ∀ key : TemplateKey, key.IsKey → '/' ∉ (pattern.fileName key.text).toList ∧
      pattern.fileName key.text = String.ofList pattern.front ++ key.text ++ String.ofList pattern.back := by
  intro storage later
  obtain ⟨htext, hname, hslash⟩ := FilePattern.fileName_of_parse hpattern
  refine ⟨fun before c after hsplit hlast => ?_, fun c hc hnew => ?_, fun folder name hother => ?_,
    fun name key hkey => FilePattern.key?_eq_some_iff hkey, htext, fun key hkey => ⟨hslash key hkey, hname _⟩⟩
  · rw [recover_of_isDirectory (hfound (by simp [hsplit])), stored_foldl hwritten]
    subst hsplit
    exact FilePattern.recovered_foldl hprograms hlast _
  · have hrecovered := mem_recovered hc
    rw [stored_foldl hwritten, FilePattern.recovered_foldl_of_ne hprograms hnew] at hrecovered
    obtain ⟨file, hf, hr⟩ := List.mem_filterMap.1 (List.mem_of_mem_filter hrecovered)
    obtain ⟨hfile, stored, hstored, hversion, hc⟩ := FilePattern.exists_of_recover? hr
    exact ⟨file.2, stored, hfile ▸ hf, hstored, hversion, hc⟩
  · refine unchanged_foldl hwritten fun hfolder c hc hname => hother hfolder c hc ?_
    rw [hname, FilePattern.key?_fileName _ (hprograms c hc).key]

/-- A key that repeats one digit. -/
def repeatedKey (digit : Char) : TemplateKey :=
  ⟨String.ofList (List.replicate 64 digit)⟩

/-- A program that writes a text, under such a key. -/
def keptText (digit : Char) (text : String) : CompiledProgram :=
  ⟨repeatedKey digit, ⟨[.literal text], [], []⟩, generatorVersion, ⟨[], []⟩⟩

theorem isStorable_keptText {digit : Char} {text : String} (hkey : (repeatedKey digit).IsKey)
    (hkept : (keptText digit text).toJson.IsKept Json.depthLimit) : (keptText digit text).IsStorable :=
  ⟨hkey, rfl, CompiledProgram.decode?_encode ⟨.nil, .nil, .nil⟩ hkept⟩

/-- A pattern with digits of keys and braces beside its placeholder. -/
def bracedPattern : FilePattern :=
  ⟨"a\x7b".toList, "a\x7d.json".toList⟩

/-- A directory with a broken file, a program in a file of another key, one of another version, and a file that is
no program. -/
def usedDirectory : FileTree :=
  ⟨[(["kept"], .directory),
    (["kept", bracedPattern.fileName (repeatedKey 'a').text], .file [123]),
    (["kept", bracedPattern.fileName (repeatedKey 'b').text], .file (keptText 'f' "old").encode),
    (["kept", bracedPattern.fileName (repeatedKey 'd').text],
      .file { keptText 'd' "stale" with generator := "talc-0" }.encode),
    (["kept", "notes"], .file [110])], []⟩

/-- Programs of which two have the same key. -/
def replacedTexts : List CompiledProgram :=
  [keptText 'a' "1", keptText 'c' "2", keptText 'a' "3"]

theorem kept_by_key_bracedPattern :
    let storage := Storage.files "kept" bracedPattern
    let later := replacedTexts.foldl storage.persist usedDirectory
    (storage.recover later).filter (·.key = repeatedKey 'a') = [keptText 'a' "3"] ∧
      (storage.recover later).filter (·.key = repeatedKey 'c') = [keptText 'c' "2"] ∧
      later.file? ["kept", "notes"] = some [110] := by
  have hpattern : FilePattern.parse "a\x7b\x7bkey\x7da\x7d.json" = .ok bracedPattern := by decide +kernel
  have hprograms : ∀ c ∈ replacedTexts, c.IsStorable := by
    simp only [replacedTexts, List.forall_mem_cons]
    refine ⟨?_, ?_, ?_, fun _ h => absurd h List.not_mem_nil⟩
    all_goals exact isStorable_keptText (by decide +kernel) (by decide +kernel)
  have hwritten : allWritten "kept" bracedPattern usedDirectory replacedTexts := by decide +kernel
  obtain ⟨hlast, -, hother, -⟩ := kept_by_key hpattern hprograms hwritten (isDirectory_foldl (by decide) hwritten)
  refine ⟨hlast [keptText 'a' "1", keptText 'c' "2"] (keptText 'a' "3") [] rfl (by simp),
    hlast [keptText 'a' "1"] (keptText 'c' "2") [keptText 'a' "3"] rfl (by decide +kernel), ?_⟩
  have hnotes := (hother ["kept"] "notes" (by decide +kernel)).1
  rw [List.singleton_append] at hnotes
  rw [hnotes]
  decide +kernel

end Storage

end MarkupTemplate
