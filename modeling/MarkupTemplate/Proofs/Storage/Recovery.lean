import MarkupTemplate.Proofs.Artifact.Stored
import MarkupTemplate.Proofs.Storage.Files

/-!
# Recovering what was kept

Making directories and writing a file leave every directory where it was (`FileTree.DirectoriesIn`), so the
path of a storage leads to the directory that was made for it, and the file that was written is there
(`FileTree.hasFile_writeIn`). As long as it is, its program is recovered, if it reads back, and no other one
with its key (`Storage.mem_recover_of_hasFile`).
-/

namespace MarkupTemplate

namespace FileTree

variable {tree later : FileTree} {place target : Place} {path name : String}

/-- Relative paths start at the same place in a later tree, and all directories are there. -/
structure DirectoriesIn (tree later : FileTree) : Prop where
  working : later.working = tree.working
  directories : ∀ place, tree.isDirectoryAt place → later.isDirectoryAt place

theorem DirectoriesIn.refl (tree : FileTree) : tree.DirectoriesIn tree :=
  ⟨rfl, fun _ h => h⟩

theorem DirectoriesIn.trans {last : FileTree} (h : tree.DirectoriesIn later) (h' : later.DirectoriesIn last) :
    tree.DirectoriesIn last :=
  ⟨h'.working.trans h.working, fun place hp => h'.directories place (h.directories place hp)⟩

theorem isDirectoryAt_iff :
    tree.isDirectoryAt place ↔ place = [] ∨ tree.entries.lookup place = some .directory := by
  unfold isDirectoryAt entry?
  rw [beq_iff_eq]
  cases place with
  | nil => simp
  | cons part parts => simp

/-- Putting a file somewhere leaves the directories where they were, if none is there. -/
theorem directoriesIn_put (h : tree.isDirectoryAt target = false) (octets : Octets) :
    tree.DirectoriesIn (tree.put target octets) := by
  refine ⟨rfl, fun place hp => ?_⟩
  have hne : place ≠ target := by
    rintro rfl
    rw [h] at hp
    cases hp
  rw [isDirectoryAt_iff] at hp ⊢
  refine hp.imp_right fun hp => ?_
  obtain ⟨before, after, hentries, hbefore⟩ := List.lookup_eq_some_iff.1 hp
  refine List.lookup_eq_some_iff.2 ⟨before.filter (·.1 != target),
    after.filter (·.1 != target) ++ [(target, .file octets)], ?_, fun entry he => ?_⟩
  · simp [put, remove, hentries, hne]
  · exact hbefore entry (List.mem_of_mem_filter he)

theorem directoriesIn_makeStep {state state' : FileTree × Place} (h : makeStep state name = .ok state') :
    state.1.DirectoriesIn state'.1 := by
  unfold makeStep at h
  split at h
  · cases h
    exact .refl _
  · cases h
    refine ⟨rfl, fun place hp => ?_⟩
    rw [isDirectoryAt_iff] at hp ⊢
    exact hp.imp_right fun hp => by rw [List.lookup_append, hp, Option.some_or]
  · cases h

theorem directoriesIn_makeAll {parts : List String} {state state' : FileTree × Place}
    (h : parts.foldlM makeStep state = .ok state') : state.1.DirectoriesIn state'.1 :=
  foldlM_keeps (P := fun s : FileTree × Place => state.1.DirectoriesIn s.1)
    (fun _ _ _ _ hs hn => hs.trans (directoriesIn_makeStep hn)) (.refl _) h

/-! ### Walking a path again -/

/-- A directory that one part of a path leads to, or would if it were there, is found where it is. -/
theorem walk_again {found : Place}
    (h : tree.walk place name = .ok found ∨ tree.walk place name = .error .missing ∧ found = place ++ [name])
    (hp : later.isDirectoryAt place) (hf : later.isDirectoryAt found) : later.walk place name = .ok found := by
  have hentry := isSome_entry? hf
  unfold walk at h ⊢
  rw [hp]
  by_cases hd : tree.isDirectoryAt place
  · rw [hd] at h
    simp only [Bool.not_true, Bool.false_eq_true, if_false] at h ⊢
    by_cases hsame : name = "" ∨ name = "."
    · simpa [if_pos hsame] using h
    by_cases hup : name = ".."
    · simpa [if_neg hsame, if_pos hup] using h
    by_cases hname : isFileName name
    · have hfound : found = place ++ [name] := by
        rcases h with h | ⟨-, h⟩
        · rw [if_neg hsame, if_neg hup] at h
          simp only [hname, Bool.not_true, Bool.false_eq_true, if_false] at h
          split at h <;> cases h
          rfl
        · exact h
      subst hfound
      simp [if_neg hsame, if_neg hup, hname, hentry]
    · simp [if_neg hsame, if_neg hup, hname] at h
  · simp [hd] at h

/-- The parts along which directories were made lead to the last one of them. -/
theorem walkAll_again {parts : List String} {state state' : FileTree × Place}
    (h : parts.foldlM makeStep state = .ok state') (hd : state'.1.isDirectoryAt state'.2)
    (hl : state'.1.DirectoriesIn later) :
    later.isDirectoryAt state.2 ∧ parts.foldlM later.walk state.2 = .ok state'.2 := by
  induction parts generalizing state with
  | nil =>
    cases h
    exact ⟨hl.directories _ hd, rfl⟩
  | cons part parts ih =>
    rw [List.foldlM_cons] at h
    obtain ⟨next, hn, h⟩ := bind_eq_ok.1 h
    obtain ⟨hnext, hrest⟩ := ih h
    have hin : state.1.DirectoriesIn later :=
      ((directoriesIn_makeStep hn).trans (directoriesIn_makeAll h)).trans hl
    -- a step is taken from a directory only, and leads where it led or to what it made
    have hstep : state.1.isDirectoryAt state.2 ∧ (state.1.walk state.2 part = .ok next.2 ∨
        state.1.walk state.2 part = .error .missing ∧ next.2 = state.2 ++ [part]) := by
      have hfrom : state.1.isDirectoryAt state.2 := by
        by_cases hdir : state.1.isDirectoryAt state.2
        · exact hdir
        · simp [makeStep, walk, hdir] at hn
      refine ⟨hfrom, ?_⟩
      unfold makeStep at hn
      split at hn <;> cases hn
      · next hw => exact .inl hw
      · next hw => exact .inr ⟨hw, rfl⟩
    have hfrom := hin.directories _ hstep.1
    refine ⟨hfrom, ?_⟩
    rw [List.foldlM_cons, walk_again hstep.2 hfrom hnext]
    exact hrest

theorem place_of_makeDirectories {state : FileTree × Place} (hne : path ≠ "")
    (h : tree.makeDirectories path = .ok state) (hl : state.1.DirectoriesIn later) :
    later.place path = .ok state.2 ∧ later.isDirectoryAt state.2 := by
  unfold makeDirectories at h
  split at h
  · cases h
  · next hpath =>
    obtain ⟨⟨made, found⟩, hm, h⟩ := bind_eq_ok.1 h
    dsimp only at h
    split at h <;> cases h
    next hd =>
    have horigin : later.origin path = tree.origin path := by
      rw [origin, origin, (directoriesIn_makeAll hm |>.trans hl).working]
    rw [place, walkPath, if_pos (by simpa using hpath), if_neg hne, horigin]
    exact ⟨(walkAll_again hm hd hl).2, hl.directories _ hd⟩

/-! ### The file that was written -/

/-- The path of a directory leads somewhere, and there a file of this name holds these octets, and no other
file has the name. -/
def HasFile (tree : FileTree) (directory name : String) (octets : Octets) : Prop :=
  ∃ place, tree.place directory = .ok place ∧ (name, octets) ∈ tree.filesIn place ∧
    ∀ file ∈ tree.filesIn place, file.1 = name → file.2 = octets

/-- The directory in which a file was written is found. -/
theorem place_writeIn {directory : String} {octets : Octets} {written : FileTree} (hne : directory ≠ "")
    (h : tree.writeIn directory name octets = .ok written) :
    written.place directory = .ok (tree.spelled directory) ∧ written.isDirectoryAt (tree.spelled directory) := by
  obtain ⟨made, hm, hfree, rfl⟩ := exists_of_writeIn h
  exact place_of_makeDirectories hne hm (directoriesIn_put hfree octets)

/-- The file that was written is in the directory. -/
theorem hasFile_writeIn {directory : String} {octets : Octets} {written : FileTree} (hne : directory ≠ "")
    (h : tree.writeIn directory name octets = .ok written) : written.HasFile directory name octets := by
  refine ⟨_, (place_writeIn hne h).1, ?_⟩
  rw [(writeIn_ok h).2.1, if_pos rfl]
  refine ⟨by simp, fun file hf hname => ?_⟩
  rcases List.mem_append.1 hf with hf | hf
  · -- the file that had the name before is gone
    simp [hname] at hf
  · rw [List.mem_singleton.1 hf]

end FileTree

namespace FilePattern

variable {p : FilePattern} {name : String}

/-- The name of a file is made of the key in it. -/
theorem fileName_of_key? {key : TemplateKey} (h : p.key? name = some key) : p.fileName key.text = name := by
  obtain ⟨text, hmiddle, hkey⟩ := Option.bind_eq_some_iff.1 h
  unfold TemplateKey.parse? at hkey
  split at hkey <;> cases hkey
  obtain ⟨middle, hends, rfl⟩ := Option.map_eq_some_iff.1 hmiddle
  obtain ⟨rest, hfront, hback⟩ := Option.bind_eq_some_iff.1 hends
  obtain ⟨reversed, hreversed, rfl⟩ := Option.map_eq_some_iff.1 hback
  have hrest : rest = reversed.reverse ++ p.back := by
    rw [← List.reverse_reverse rest, Text.dropStart?_eq_some hreversed]
    simp
  rw [fileName, String.toList_ofList, List.append_assoc, ← hrest, ← Text.dropStart?_eq_some hfront,
    String.ofList_toList]

/-- A file goes by a key exactly if its name is made of the key. -/
theorem key?_eq_some_iff {key : TemplateKey} (h : key.IsKey) : p.key? name = some key ↔ name = p.fileName key.text :=
  ⟨fun hname => (fileName_of_key? hname).symm, fun hname => by rw [hname, key?_fileName p h]⟩

/-- The program in the file of its own key is recovered from it, if it reads back. -/
theorem recover?_own (p : FilePattern) {c : CompiledProgram} (hkey : c.key.IsKey)
    (hversion : c.generator = generatorVersion) (hread : CompiledProgram.decode? c.encode = some c) :
    p.recover? (p.fileName c.key.text, c.encode) = some c := by
  unfold recover?
  rw [key?_fileName p hkey]
  simp only [hread, Option.bind_eq_bind, Option.bind_some, if_pos hversion]

theorem recover?_written (p : FilePattern) {c : CompiledProgram} {inputs : KeyInputs}
    (hkey : c.key = .derive inputs) (hversion : c.generator = generatorVersion)
    (hread : CompiledProgram.decode? c.encode = some c) :
    p.recover? (p.fileName c.key.text, c.encode) = some c :=
  p.recover?_own (hkey ▸ TemplateKey.parse?_derive inputs) hversion hread

theorem key?_of_recover? {file : String × Octets} {c : CompiledProgram} (h : p.recover? file = some c) :
    p.key? file.1 = some c.key := by
  unfold recover? at h
  obtain ⟨key, hkey, h⟩ := Option.bind_eq_some_iff.1 h
  obtain ⟨stored, -, h⟩ := Option.bind_eq_some_iff.1 h
  split at h <;> cases h
  exact hkey

end FilePattern

namespace Storage

variable {c : CompiledProgram}

/-- A program whose file is there is recovered, and no other program with its key. -/
theorem mem_recover_of_hasFile {directory : String} {pattern : FilePattern} {tree : FileTree}
    (h : tree.HasFile directory (pattern.fileName c.key.text) c.encode)
    (hc : pattern.recover? (pattern.fileName c.key.text, c.encode) = some c) :
    c ∈ (files directory pattern).recover tree ∧
      ∀ other ∈ (files directory pattern).recover tree, other.key.text = c.key.text → other = c := by
  obtain ⟨place, hplace, hmem, honly⟩ := h
  have hrecover : (files directory pattern).recover tree =
      (tree.filesIn place).filterMap pattern.recover? := by
    simp only [recover, hplace]
  rw [hrecover]
  refine ⟨List.mem_filterMap.2 ⟨_, hmem, hc⟩, fun other ho hkey => ?_⟩
  obtain ⟨⟨name, octets⟩, hf, hr⟩ := List.mem_filterMap.1 ho
  -- the key tells the name of the file, and the name what is in it
  have hname := FilePattern.fileName_of_key? (FilePattern.key?_of_recover? hr)
  rw [hkey] at hname
  have hoctets := honly _ hf hname.symm
  dsimp only at hname hoctets
  rw [← hname, hoctets, hc] at hr
  exact (Option.some.inj hr).symm

/-- A program that does not read back is not recovered, however it was written. -/
theorem recover_persist_unreadable {storage : Storage} {tree : FileTree} (h : storage.stored tree = [])
    (hread : CompiledProgram.decode? c.encode = none) : storage.recover (storage.persist tree c) = [] := by
  refine List.eq_nil_iff_forall_not_mem.2 fun recovered hr => ?_
  obtain ⟨file, hf, hr⟩ := exists_of_mem_recover hr
  rcases mem_stored_persist hf with hf | ⟨directory, pattern, rfl, rfl⟩
  · rw [h] at hf
    cases hf
  · simp [recover?, FilePattern.recover?, hread] at hr

end Storage

end MarkupTemplate
