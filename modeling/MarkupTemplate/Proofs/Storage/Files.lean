import MarkupTemplate.Proofs.Key.Framing
import MarkupTemplate.Proofs.Results
import MarkupTemplate.Storage.Basic

/-!
# Files of a storage

A path that leads somewhere leads to the place that it spells (`FileTree.spelled`), whatever else is in the
tree. So the files of a storage can be named without walking: `Storage.stored`. What is recovered comes
from them, and keeping a program changes them in the one file that goes by its key.
-/

namespace MarkupTemplate

namespace FileTree

variable {tree : FileTree} {place target : Place} {path name : String}

/-- Where one part of a path leads from a place, if it leads anywhere. -/
def step (place : Place) (name : String) : Place :=
  if name = "" ∨ name = "." then place
  else if name = ".." then place.dropLast
  else place ++ [name]

/-- The place that a path spells. -/
def spelled (tree : FileTree) (path : String) : Place :=
  (names path).foldl step (tree.origin path)

theorem walk_ok {found : Place} (h : tree.walk place name = .ok found) : found = step place name := by
  unfold walk at h
  split at h
  · cases h
  · rw [step]
    split at h <;> rename_i hsame
    · cases h; exact (if_pos hsame).symm
    · rw [if_neg hsame]
      split at h <;> rename_i hup
      · cases h; exact (if_pos hup).symm
      · rw [if_neg hup]
        split at h
        · cases h
        · split at h <;> cases h
          rfl

theorem walk_missing (h : tree.walk place name = .error .missing) :
    step place name = place ++ [name] ∧ tree.entry? (place ++ [name]) = none := by
  unfold walk at h
  split at h
  · cases h
  · split at h <;> rename_i hsame
    · cases h
    · split at h <;> rename_i hup
      · cases h
      · split at h
        · cases h
        · split at h <;> rename_i hentry
          · cases h
          · rw [step, if_neg hsame, if_neg hup]
            exact ⟨rfl, Option.not_isSome_iff_eq_none.1 hentry⟩

theorem walkAll_ok {parts : List String} {found : Place} (h : parts.foldlM tree.walk place = .ok found) :
    found = parts.foldl step place := by
  induction parts generalizing place with
  | nil => cases h; rfl
  | cons part parts ih =>
    rw [List.foldlM_cons] at h
    obtain ⟨next, hn, h⟩ := bind_eq_ok.1 h
    rw [List.foldl_cons, ← walk_ok hn]
    exact ih h

theorem walkPath_ok {found : Place} (h : tree.walkPath path = .ok found) : found = tree.spelled path := by
  unfold walkPath at h
  split at h
  · cases h
  · exact walkAll_ok h

theorem place_ok {found : Place} (h : tree.place path = .ok found) : found = tree.spelled path := by
  unfold place at h
  split at h
  · exact walkPath_ok h
  · cases h

theorem isSome_entry? (h : tree.isDirectoryAt place) : (tree.entry? place).isSome := by
  unfold isDirectoryAt at h
  rw [beq_iff_eq.1 h]
  rfl

/-! ### Making directories and writing files -/

theorem file?_eq (tree : FileTree) (place : Place) : tree.file? place =
    if place = [] then none else (tree.entries.lookup place).bind fun
      | .file octets => some octets
      | .directory => none := by
  unfold file? entry?
  cases place with
  | nil => rfl
  | cons part parts =>
    rw [List.isEmpty_cons, if_neg Bool.false_ne_true, if_neg (by simp)]
    rcases tree.entries.lookup (part :: parts) with _ | ⟨octets⟩ | _ <;> rfl

/-- Nothing has been done to a tree but making directories. -/
structure OnlyMade (tree made : FileTree) : Prop where
  working : made.working = tree.working
  files : ∀ directory, made.filesIn directory = tree.filesIn directory
  file : ∀ place, made.file? place = tree.file? place

theorem OnlyMade.refl (tree : FileTree) : tree.OnlyMade tree :=
  ⟨rfl, fun _ => rfl, fun _ => rfl⟩

theorem OnlyMade.trans {made later : FileTree} (h : tree.OnlyMade made) (h' : made.OnlyMade later) :
    tree.OnlyMade later :=
  ⟨h'.working.trans h.working, fun d => (h'.files d).trans (h.files d), fun p => (h'.file p).trans (h.file p)⟩

/-- Nothing but a directory has been made where nothing was. -/
theorem onlyMade_directory (h : tree.entry? place = none) :
    tree.OnlyMade { tree with entries := tree.entries ++ [(place, .directory)] } := by
  refine ⟨rfl, fun directory => by simp [filesIn, List.filterMap_append], fun other => ?_⟩
  rw [file?_eq, file?_eq]
  split
  · rfl
  · next hne =>
    rw [List.lookup_append]
    by_cases hother : other = place
    · subst hother
      have hnone : tree.entries.lookup other = none := by simpa [hne, entry?] using h
      simp [hnone]
    · simp [List.lookup_cons, beq_eq_false_iff_ne.2 hother]

theorem makeStep_ok {state state' : FileTree × Place} (h : makeStep state name = .ok state') :
    state.1.OnlyMade state'.1 ∧ state'.2 = step state.2 name := by
  unfold makeStep at h
  split at h
  · rename_i found hw
    cases h
    exact ⟨.refl _, walk_ok hw⟩
  · rename_i hw
    cases h
    obtain ⟨hstep, hnone⟩ := walk_missing hw
    exact ⟨onlyMade_directory hnone, hstep.symm⟩
  · cases h

theorem makeAll_ok {parts : List String} {state state' : FileTree × Place}
    (h : parts.foldlM makeStep state = .ok state') :
    state.1.OnlyMade state'.1 ∧ state'.2 = parts.foldl step state.2 := by
  induction parts generalizing state with
  | nil => cases h; exact ⟨.refl _, rfl⟩
  | cons part parts ih =>
    rw [List.foldlM_cons] at h
    obtain ⟨next, hn, h⟩ := bind_eq_ok.1 h
    obtain ⟨hm, hp⟩ := makeStep_ok hn
    obtain ⟨hm', hp'⟩ := ih h
    exact ⟨hm.trans hm', by rw [hp', hp, List.foldl_cons]⟩

theorem makeDirectories_ok {state : FileTree × Place} (h : tree.makeDirectories path = .ok state) :
    tree.OnlyMade state.1 ∧ state.2 = tree.spelled path := by
  unfold makeDirectories at h
  split at h
  · cases h
  · obtain ⟨⟨made, found⟩, hm, h⟩ := bind_eq_ok.1 h
    simp only at h
    split at h <;> cases h
    exact makeAll_ok hm

/-- The file that an entry is in a directory. -/
def fileIn? (directory : Place) : Place × FileEntry → Option (String × Octets)
  | (place, .file octets) =>
    match place.getLast? with
    | some name => if place.dropLast = directory then some (name, octets) else none
    | none => none
  | (_, .directory) => none

theorem filesIn_eq (tree : FileTree) (directory : Place) :
    tree.filesIn directory = tree.entries.filterMap (fileIn? directory) :=
  rfl

theorem fileIn?_eq_some {directory : Place} {entry : Place × FileEntry} {file : String × Octets} :
    fileIn? directory entry = some file ↔ entry = (directory ++ [file.1], .file file.2) := by
  constructor
  · intro h
    unfold fileIn? at h
    split at h
    · split at h
      · next last hlast =>
        split at h <;> cases h
        next hplace =>
        rw [← hplace, List.dropLast_append_getLast? _ hlast]
      · cases h
    · cases h
  · rintro rfl
    simp [fileIn?]

/-- Removing what is at a place removes the file from its directory. -/
theorem filesIn_remove (tree : FileTree) (target directory : Place) : (tree.remove target).filesIn directory =
    (tree.filesIn directory).filter fun file => directory ++ [file.1] != target := by
  rw [filesIn_eq, filesIn_eq, remove, List.filterMap_filter, List.filter_filterMap]
  refine List.filterMap_congr fun entry _ => ?_
  cases hfile : fileIn? directory entry with
  | none => simp
  | some file =>
    rw [fileIn?_eq_some.1 hfile]
    simp [Option.filter]

/-- A file that is put somewhere takes the place of the one that was there. -/
theorem filesIn_put (tree : FileTree) (place directory : Place) (name : String) (octets : Octets) :
    (tree.put (place ++ [name]) octets).filesIn directory =
      ((tree.filesIn directory).filter fun file => directory ++ [file.1] != place ++ [name]) ++
        if place = directory then [(name, octets)] else [] := by
  rw [filesIn_eq, put, List.filterMap_append, ← filesIn_eq, filesIn_remove]
  congr 1
  split
  · next hplace => simp [hplace, fileIn?]
  · next hplace => simp [hplace, fileIn?]

theorem lookup_filter (h : place ≠ target) (entries : List (Place × FileEntry)) :
    (entries.filter fun entry => entry.1 != target).lookup place = entries.lookup place := by
  induction entries with
  | nil => rfl
  | cons entry entries ih =>
    rw [List.filter_cons]
    split
    · rw [List.lookup_cons, List.lookup_cons, ih]
    · next heq =>
      have hentry : entry.1 = target := by simpa using heq
      rw [List.lookup_cons, hentry, beq_eq_false_iff_ne.2 h, ih]

/-- What other files hold stays when one is put somewhere. -/
theorem file?_put (h : place ≠ target) (octets : Octets) : (tree.put target octets).file? place = tree.file? place := by
  rw [file?_eq, file?_eq, put, remove, List.lookup_append, lookup_filter h]
  simp [List.lookup_cons, beq_eq_false_iff_ne.2 h]

/-- What is written is put into a directory that is there or was made, in no directory's place. -/
theorem exists_of_writeIn {directory : String} {octets : Octets} {written : FileTree}
    (h : tree.writeIn directory name octets = .ok written) : ∃ made,
      tree.makeDirectories directory = .ok (made, tree.spelled directory) ∧
        made.isDirectoryAt (tree.spelled directory ++ [name]) = false ∧
          written = made.put (tree.spelled directory ++ [name]) octets := by
  unfold writeIn at h
  obtain ⟨⟨made, found⟩, hm, h⟩ := bind_eq_ok.1 h
  obtain ⟨-, rfl⟩ := makeDirectories_ok hm
  dsimp only at h
  split at h
  · cases h
  · split at h <;> cases h
    next hfree =>
    exact ⟨made, hm, Bool.eq_false_iff.2 hfree, rfl⟩

theorem writeIn_ok {directory : String} {octets : Octets} {written : FileTree}
    (h : tree.writeIn directory name octets = .ok written) : written.working = tree.working ∧
      (∀ folder, written.filesIn folder =
        ((tree.filesIn folder).filter fun file => folder ++ [file.1] != tree.spelled directory ++ [name]) ++
          if tree.spelled directory = folder then [(name, octets)] else []) ∧
      ∀ place, place ≠ tree.spelled directory ++ [name] → written.file? place = tree.file? place := by
  obtain ⟨made, hm, -, rfl⟩ := exists_of_writeIn h
  obtain ⟨hm, -⟩ := makeDirectories_ok hm
  exact ⟨hm.working, fun folder => by rw [filesIn_put, hm.files],
    fun place hne => by rw [file?_put hne, hm.file]⟩

theorem spelled_congr {other : FileTree} (h : other.working = tree.working) (path : String) :
    other.spelled path = tree.spelled path := by
  rw [spelled, spelled, origin, origin, h]

end FileTree

/-! ### Names of files -/

/-- The key is what its text is read as: 64 hexadecimal digits in lower case. -/
def TemplateKey.IsKey (key : TemplateKey) : Prop :=
  TemplateKey.parse? key.text = some key

instance (key : TemplateKey) : Decidable key.IsKey :=
  inferInstanceAs (Decidable (_ = _))

namespace FilePattern

theorem middle?_fileName (p : FilePattern) (key : String) : p.middle? (p.fileName key) = some key := by
  simp only [middle?, fileName, String.toList_ofList, List.append_assoc, Text.dropStart?_append,
    Option.bind_some, Text.dropEnd?, List.reverse_append, Option.map_some, List.reverse_reverse,
    String.ofList_toList]

/-- The file of a key goes by this key. -/
theorem key?_fileName (p : FilePattern) {key : TemplateKey} (h : key.IsKey) :
    p.key? (p.fileName key.text) = some key := by
  rw [key?, middle?_fileName, Option.bind_some, h]

/-- The files of a directory with a program kept in the file of its key. -/
def keep (p : FilePattern) (files : List (String × Octets)) (c : CompiledProgram) : List (String × Octets) :=
  files.filter (·.1 != p.fileName c.key.text) ++ [(p.fileName c.key.text, c.encode)]

end FilePattern

/-! ### Stored files -/

namespace Storage

/-- The files that may be recovered, with their names, even if the directory cannot be reached. -/
def stored (storage : Storage) (tree : FileTree) : List (String × Octets) :=
  match storage with
  | memory => []
  | files directory _ => tree.filesIn (tree.spelled directory)

/-- The program that is recovered from a file. -/
def recover? (storage : Storage) (file : String × Octets) : Option CompiledProgram :=
  match storage with
  | memory => none
  | files _ pattern => pattern.recover? file

variable {storage : Storage} {tree : FileTree} {c : CompiledProgram}

/-- What is recovered comes from a stored file. -/
theorem exists_of_mem_recover (h : c ∈ storage.recover tree) :
    ∃ file ∈ storage.stored tree, storage.recover? file = some c := by
  unfold recover at h
  split at h
  · cases h
  · split at h
    · rename_i place hp
      obtain ⟨file, hf, hr⟩ := List.mem_filterMap.1 h
      rw [FileTree.place_ok hp] at hf
      exact ⟨file, hf, hr⟩
    · cases h

/-- What is written of a program changes the stored files in the one that goes by its key. -/
theorem stored_persist {directory : String} {pattern : FilePattern} {written : FileTree}
    (h : tree.writeIn directory (pattern.fileName c.key.text) c.encode = .ok written) :
    (files directory pattern).stored written = pattern.keep ((files directory pattern).stored tree) c := by
  obtain ⟨hworking, hfiles, -⟩ := FileTree.writeIn_ok h
  rw [stored, FileTree.spelled_congr hworking, hfiles, if_pos rfl, FilePattern.keep]
  congr 1
  refine List.filter_congr fun file _ => ?_
  rw [Bool.eq_iff_iff]
  simp

/-- Keeping a program writes no file but the one of its key. -/
theorem mem_stored_persist {file : String × Octets} (h : file ∈ storage.stored (storage.persist tree c)) :
    file ∈ storage.stored tree ∨ ∃ directory pattern, storage = files directory pattern ∧
      file = (pattern.fileName c.key.text, c.encode) := by
  cases storage with
  | memory => cases h
  | files directory pattern =>
    simp only [persist] at h
    split at h
    · rename_i written hw
      rw [stored_persist hw, FilePattern.keep] at h
      rcases List.mem_append.1 h with h | h
      · exact .inl (List.mem_of_mem_filter h)
      · exact .inr ⟨directory, pattern, rfl, List.mem_singleton.1 h⟩
    · exact .inl h

end Storage

end MarkupTemplate
