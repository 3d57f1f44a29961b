import MarkupTemplate.Proofs.Import.Closure
import MarkupTemplate.Proofs.Import.Resolution
import MarkupTemplate.Proofs.Storage.Files
import MarkupTemplate.Resource.Directory

/-!
# Resources below a root

The path of a resource is cut at its slashes; names that are empty or a point lead nowhere, and the others are its
components. What a path below a root spells is the place of the root with the components behind it (`spelled_below`),
unless a double point is among them, and then the path is refused (`belowRoot?_eq`). A walk that gets anywhere gets to
the place that the path spells, so nothing else is read (`loadBelow_ok`), and no other file matters
(`loadBelow_congr`). Where everything is in a directory, whatever stands at the place is found
(`IsFileSystem.loadBelow`).

Imports are resolved before they are asked for. A relative path loses all its double points on the way
(`not_mem_components_resolveUri`), so `imports_below_root` holds of what an import says, and not only of what a provider
is given.
-/

namespace MarkupTemplate

open Text

namespace FileTree

variable {tree other : FileTree} {root path full text : String} {place start : Place} {parts : List String}
  {octets : Octets}

/-! ### Components -/

/-- The names in a path that lead somewhere. -/
def components (path : String) : List String :=
  (pathParts path.toList).map String.ofList

/-- The place below a root that a path names. -/
def location (tree : FileTree) (root path : String) : Place :=
  tree.spelled root ++ components path

/-- A name that leads nowhere. -/
abbrev IsSilent (name : String) : Prop :=
  name = "" ∨ name = "."

theorem components_eq (path : String) : components path = (names path).filter (¬IsSilent ·) := by
  rw [components, pathParts, names, List.filter_map]
  congr 1
  refine List.filter_congr fun part _ => ?_
  have hempty : String.ofList part = "" ↔ part = [] := ⟨fun h => String.ofList_injective h, fun h => h ▸ rfl⟩
  have hpoint : String.ofList part = "." ↔ part = ['.'] := ⟨fun h => String.ofList_injective h, fun h => h ▸ rfl⟩
  rw [Bool.eq_iff_iff]
  simp [IsSilent, hempty, hpoint]

theorem mem_components : ".." ∈ components path ↔ ".." ∈ names path := by
  rw [components_eq, List.mem_filter]
  simp [IsSilent]

theorem pathParts_dropWhile (cs : List Char) : pathParts (cs.dropWhile (· == '/')) = pathParts cs := by
  induction cs with
  | nil => rfl
  | cons c cs ih =>
    rw [List.dropWhile_cons]
    split
    · next hc =>
      rw [ih, beq_iff_eq.1 hc]
      exact (pathParts_append_slash [] cs).symm
    · rfl

theorem components_withoutLeadingSlashes (path : String) :
    components (withoutLeadingSlashes path) = components path := by
  rw [components, withoutLeadingSlashes, String.toList_ofList, pathParts_dropWhile, components]

theorem isRooted_withoutLeadingSlashes (path : String) : isRooted (withoutLeadingSlashes path).toList = false := by
  rw [withoutLeadingSlashes, String.toList_ofList, isRooted]
  have hhead := List.head?_dropWhile_not (· == '/') path.toList
  cases hcs : (path.toList.dropWhile (· == '/')).head? with
  | none => rfl
  | some c =>
    rw [hcs] at hhead
    simpa using hhead

theorem filter_cons_silent {name : String} (h : IsSilent name) (parts : List String) :
    (name :: parts).filter (¬IsSilent ·) = parts.filter (¬IsSilent ·) :=
  List.filter_cons_of_neg (by rw [decide_eq_true_eq]; exact not_not_intro h)

theorem filter_cons_not_silent {name : String} (h : ¬IsSilent name) (parts : List String) :
    (name :: parts).filter (¬IsSilent ·) = [name] ++ parts.filter (¬IsSilent ·) :=
  List.filter_cons_of_pos (decide_eq_true h)

/-- What a path spells without double points. -/
theorem foldl_step (h : ".." ∉ parts) (place : Place) :
    parts.foldl step place = place ++ parts.filter (¬IsSilent ·) := by
  induction parts generalizing place with
  | nil => simp
  | cons part parts ih =>
    rw [List.mem_cons, not_or] at h
    rw [List.foldl_cons, ih h.2, step]
    by_cases hs : IsSilent part
    · rw [if_pos hs, filter_cons_silent hs]
    · rw [if_neg hs, if_neg (Ne.symm h.1), filter_cons_not_silent hs, List.append_assoc]

/-! ### Paths behind a root -/

theorem names_append_slash (before after : String) : names (before ++ "/" ++ after) = names before ++ names after := by
  have hchars : (before ++ "/" ++ after).toList = before.toList ++ '/' :: after.toList := by simp
  rw [names, hchars, splitAll_append_slash, List.map_append, names, names]

/-- A path behind a root starts where the root starts, and its names follow on those of the root, but for the empty
one behind a slash at the end. -/
theorem join_cases (tree : FileTree) (hroot : root ≠ "") (path : String) :
    tree.origin (join root path) = tree.origin root ∧
      ∃ front, names (join root path) = front ++ names path ∧ (names root = front ∨ names root = front ++ [""]) := by
  have hcons : root.toList ≠ [] := fun h => hroot (String.toList_injective h)
  have horigin (more : String) : tree.origin (root ++ more) = tree.origin root := by
    rw [origin, origin, String.toList_append, List.head?_append_of_ne_nil _ hcons]
  rw [join]
  split
  · next hend =>
    obtain ⟨front, hfront⟩ := List.getLast?_eq_some_iff.1 (hend.resolve_left hroot)
    have hsplit : root = String.ofList front ++ "/" := String.toList_injective (by simp [hfront])
    refine ⟨horigin path, names (String.ofList front), ?_, .inr ?_⟩
    · rw [hsplit, names_append_slash]
    · have hlast := names_append_slash (String.ofList front) ""
      rwa [String.append_empty, ← hsplit] at hlast
  · refine ⟨?_, names root, names_append_slash root path, .inl rfl⟩
    rw [String.append_assoc]
    exact horigin _

theorem spelled_join (hpath : isRooted path.toList = false) (root : String) :
    tree.spelled (join root path) = (names path).foldl step (tree.spelled root) := by
  by_cases hroot : root = ""
  · have horigin : tree.origin path = tree.working := if_neg (Bool.eq_false_iff.1 hpath)
    rw [hroot, join, if_pos (.inl rfl), String.empty_append, spelled, horigin]
    rfl
  · obtain ⟨horigin, front, hnames, hfront⟩ := join_cases tree hroot path
    have hroot : (names root).foldl step (tree.origin root) = front.foldl step (tree.origin root) := by
      rcases hfront with hfront | hfront
      · rw [hfront]
      · rw [hfront, List.foldl_append]
        rfl
    rw [spelled, hnames, List.foldl_append, horigin, ← hroot, spelled]

/-- A path without double points spells the place below the root that its components name. -/
theorem spelled_below (h : ".." ∉ components path) (root : String) :
    tree.spelled (join root (withoutLeadingSlashes path)) = tree.location root path := by
  rw [← components_withoutLeadingSlashes] at h
  rw [spelled_join (isRooted_withoutLeadingSlashes path), foldl_step (mem_components.not.1 h), ← components_eq,
    components_withoutLeadingSlashes, location]

theorem belowRoot?_eq (root path : String) : belowRoot? root path =
    if ".." ∈ components path then none else some (join root (withoutLeadingSlashes path)) := by
  rw [belowRoot?, ← components_withoutLeadingSlashes]
  simp [mem_components]

/-! ### What is read -/

theorem placeBelow_ok (h : tree.placeBelow root full = .ok place) : place = tree.spelled full := by
  unfold placeBelow at h
  split at h
  · exact place_ok h
  · exact walkPath_ok h

theorem load_provider (tree : FileTree) (root path : String) :
    (tree.provider root).load path = tree.loadBelow root path := by
  rw [provider]

theorem has_provider (tree : FileTree) (root path : String) :
    (tree.provider root).has path = (tree.loadBelow root path).toOption.isSome := by
  rw [provider]

theorem loadBelow_rejected (h : ".." ∈ components path) (tree : FileTree) (root : String) :
    tree.loadBelow root path = .error (.outsideRoot path) := by
  unfold loadBelow
  rw [belowRoot?_eq, if_pos h]

/-- What is read is the file at the place that the components of the path name below the root. -/
theorem loadBelow_ok (h : tree.loadBelow root path = .ok octets) :
    ".." ∉ components path ∧ tree.file? (tree.location root path) = some octets := by
  unfold loadBelow at h
  rw [belowRoot?_eq] at h
  split at h
  · cases h
  · next full hfull =>
    split at hfull <;> cases hfull
    next hbelow =>
    refine ⟨hbelow, ?_⟩
    rw [← spelled_below hbelow]
    split at h
    · next place hplace =>
      split at h <;> cases h
      next hfile =>
      rwa [← placeBelow_ok hplace]
    · cases h
    · cases h

/-! ### What is found

A file below the root is read by every path that names it. -/

/-- A tree as a file system holds it: everything is in a directory, under a name that files can have. -/
def IsFileSystem (tree : FileTree) : Prop :=
  ∀ entry ∈ tree.entries, tree.isDirectoryAt entry.1.dropLast ∧ ∃ name ∈ entry.1.getLast?, isFileName name

theorem IsFileSystem.parent (h : tree.IsFileSystem) {name : String}
    (hentry : (tree.entry? (place ++ [name])).isSome) : tree.isDirectoryAt place ∧ isFileName name := by
  have hne : (place ++ [name]).isEmpty = false := by simp
  unfold entry? at hentry
  rw [hne, if_neg Bool.false_ne_true] at hentry
  obtain ⟨entry, hlookup⟩ := Option.isSome_iff_exists.1 hentry
  obtain ⟨before, after, hentries, -⟩ := List.lookup_eq_some_iff.1 hlookup
  obtain ⟨hdirectory, last, hlast, hname⟩ := h (place ++ [name], entry) (by simp [hentries])
  rw [List.dropLast_concat] at hdirectory
  rw [List.getLast?_append, List.getLast?_singleton, Option.some_or, Option.mem_some_iff] at hlast
  exact ⟨hdirectory, hlast ▸ hname⟩

/-- On the way to something there are directories. -/
theorem IsFileSystem.isDirectoryAt (h : tree.IsFileSystem) {rest : Place} (hrest : rest ≠ [])
    (hentry : (tree.entry? (place ++ rest)).isSome) : tree.isDirectoryAt place := by
  induction rest using List.reverseRecOn with
  | nil => exact absurd rfl hrest
  | append_singleton rest name ih =>
    rw [← List.append_assoc] at hentry
    have hdirectory := (h.parent hentry).1
    by_cases hnil : rest = []
    · rwa [hnil, List.append_nil] at hdirectory
    · have hthere := isSome_entry? hdirectory
      exact ih hnil hthere

theorem walk_silent {name : String} (h : tree.isDirectoryAt place) (hname : IsSilent name) :
    tree.walk place name = .ok place := by
  simp [walk, h, hname]

theorem IsFileSystem.walk_name (h : tree.IsFileSystem) {name : String} (hname : ¬IsSilent name) (hup : name ≠ "..")
    (hentry : (tree.entry? (place ++ [name])).isSome) : tree.walk place name = .ok (place ++ [name]) := by
  obtain ⟨hdirectory, hlength⟩ := h.parent hentry
  simp [walk, hdirectory, hname, hup, hlength, hentry]

/-- Names of which the last one leads somewhere are walked along to what is there. -/
theorem IsFileSystem.walkAll (h : tree.IsFileSystem) {last : String} (hname : ¬IsSilent last)
    (hup : ".." ∉ parts ++ [last]) (hplace : tree.isDirectoryAt place)
    (hentry : (tree.entry? (place ++ (parts ++ [last]).filter (¬IsSilent ·))).isSome) :
    (parts ++ [last]).foldlM tree.walk place = .ok (place ++ (parts ++ [last]).filter (¬IsSilent ·)) := by
  induction parts generalizing place with
  | nil =>
    have hlast : last ≠ ".." := fun heq => hup (by simp [heq])
    rw [List.nil_append, filter_cons_not_silent hname, List.filter_nil, List.append_nil] at hentry ⊢
    rw [List.foldlM_cons, h.walk_name hname hlast hentry]
    rfl
  | cons part parts ih =>
    rw [List.cons_append, List.mem_cons, not_or] at hup
    rw [List.cons_append] at hentry ⊢
    rw [List.foldlM_cons]
    by_cases hs : IsSilent part
    · rw [filter_cons_silent hs] at hentry ⊢
      rw [walk_silent hplace hs]
      exact ih hup.2 hplace hentry
    · rw [filter_cons_not_silent hs, ← List.append_assoc] at hentry ⊢
      have hrest : (parts ++ [last]).filter (¬IsSilent ·) ≠ [] :=
        List.ne_nil_of_mem (List.mem_filter.2 ⟨by simp, decide_eq_true hname⟩)
      have hnext := h.isDirectoryAt hrest hentry
      have hthere := isSome_entry? hnext
      rw [h.walk_name hs (Ne.symm hup.1) hthere]
      exact ih hup.2 hnext hentry

theorem getLast?_names_withoutLeadingSlashes (path : String) :
    (names (withoutLeadingSlashes path)).getLast? = (names path).getLast? := by
  have hchars (cs : List Char) : (splitAll '/' (cs.dropWhile (· == '/'))).getLast? = (splitAll '/' cs).getLast? := by
    induction cs with
    | nil => rfl
    | cons c cs ih =>
      rw [List.dropWhile_cons]
      split
      · next hc =>
        have hne : splitAll '/' cs ≠ [] := by
          rw [splitAll_eq_splitOn]
          exact List.splitOn_ne_nil '/' cs
        obtain ⟨last, hlast⟩ := Option.isSome_iff_exists.1 (List.getLast?_isSome.2 hne)
        have hcons : splitAll '/' ('/' :: cs) = splitAll '/' [] ++ splitAll '/' cs := splitAll_append_slash [] cs
        rw [ih, beq_iff_eq.1 hc, hcons, List.getLast?_append, hlast, Option.some_or]
      · rfl
  rw [names, names, withoutLeadingSlashes, String.toList_ofList, List.getLast?_map, List.getLast?_map, hchars]

/-- A root that leads somewhere is walked along to the same place before more names. -/
theorem walkPath_join (hroot : tree.walkPath root = .ok place) (path : String) :
    tree.walkPath (join root path) = (names path).foldlM tree.walk place := by
  have hne : root ≠ "" := by
    rintro rfl
    cases hroot
  have hjoin : join root path ≠ "" := by
    rw [join]
    split <;> simp [hne]
  obtain ⟨horigin, front, hnames, hfront⟩ := join_cases tree hne path
  rw [walkPath, if_neg hne] at hroot
  have hwalked : front.foldlM tree.walk (tree.origin root) = .ok place := by
    rcases hfront with hfront | hfront
    · rwa [hfront] at hroot
    · rw [hfront, List.foldlM_append] at hroot
      obtain ⟨before, hbefore, hroot⟩ := bind_eq_ok.1 hroot
      obtain ⟨last, hlast, hroot⟩ := bind_eq_ok.1 hroot
      cases hroot
      rw [hbefore, walk_ok hlast]
      rfl
  rw [walkPath, if_neg hjoin, hnames, horigin, List.foldlM_append, hwalked]
  rfl

/-- A root leads to a directory. The empty path leads nowhere, but as a root it stands for the working directory. -/
structure LeadsTo (tree : FileTree) (root : String) (start : Place) : Prop where
  directory : tree.isDirectoryAt start
  walked : tree.walkPath root = .ok start ∨ root = "" ∧ start = tree.working

theorem LeadsTo.spelled_eq (h : tree.LeadsTo root start) : tree.spelled root = start := by
  rcases h.walked with hroot | ⟨rfl, rfl⟩
  · exact (walkPath_ok hroot).symm
  · rfl

/-- Behind the root, the names of a path are walked along from where the root leads to. -/
theorem LeadsTo.placeBelow (h : tree.LeadsTo root start) (hne : path ≠ "") (hrooted : isRooted path.toList = false)
    (hpath : root = "" → isPath path) :
    tree.placeBelow root (join root path) = (names path).foldlM tree.walk start := by
  rcases h.walked with hroot | ⟨rfl, rfl⟩
  · have hroot' : root ≠ "" := by
      rintro rfl
      cases hroot
    rw [FileTree.placeBelow, if_neg hroot', walkPath_join hroot]
  · have horigin : tree.origin path = tree.working := if_neg (Bool.eq_false_iff.1 hrooted)
    rw [FileTree.placeBelow, if_pos rfl, join, if_pos (.inl rfl), String.empty_append, place, if_pos (hpath rfl),
      walkPath, if_neg hne, horigin]

/-- A file below a root that leads to a directory is read. -/
theorem IsFileSystem.loadBelow (h : tree.IsFileSystem) (hroot : tree.LeadsTo root start)
    (hbelow : ".." ∉ components path) (hlast : ∃ last ∈ (names path).getLast?, ¬IsSilent last)
    (hpath : root = "" → isPath (withoutLeadingSlashes path))
    (hfile : tree.file? (tree.location root path) = some octets) : tree.loadBelow root path = .ok octets := by
  have hlocation : tree.location root path =
      start ++ (names (withoutLeadingSlashes path)).filter (¬IsSilent ·) := by
    rw [location, hroot.spelled_eq, ← components_eq, components_withoutLeadingSlashes]
  have hentry : (tree.entry? (tree.location root path)).isSome := by
    unfold file? at hfile
    split at hfile
    · next hentry =>
      rw [hentry]
      rfl
    · cases hfile
  have hup : ".." ∉ names (withoutLeadingSlashes path) := by
    rwa [← mem_components, components_withoutLeadingSlashes]
  rw [← getLast?_names_withoutLeadingSlashes] at hlast
  obtain ⟨last, hlast, hname⟩ := hlast
  have hne : withoutLeadingSlashes path ≠ "" := by
    intro hempty
    rw [hempty] at hlast
    cases hlast
    exact hname (.inl rfl)
  obtain ⟨front, hfront⟩ := List.getLast?_eq_some_iff.1 hlast
  rw [hlocation, hfront] at hentry
  have hwalk := h.walkAll hname (hfront ▸ hup) hroot.directory hentry
  rw [← hfront] at hwalk
  unfold FileTree.loadBelow
  rw [belowRoot?_eq, if_neg hbelow]
  dsimp only
  rw [hroot.placeBelow hne (isRooted_withoutLeadingSlashes path) hpath, hwalk]
  dsimp only
  rw [← hlocation, hfile]

/-- Two trees have the same directories, and something at the same places. -/
structure SameNames (tree other : FileTree) : Prop where
  working : other.working = tree.working
  directories : ∀ place, other.isDirectoryAt place = tree.isDirectoryAt place
  entries : ∀ place, (other.entry? place).isSome = (tree.entry? place).isSome

theorem SameNames.placeBelow (h : tree.SameNames other) (root full : String) :
    other.placeBelow root full = tree.placeBelow root full := by
  have hwalk : other.walk = tree.walk := by
    funext place name
    simp only [walk, h.directories, h.entries]
  simp only [FileTree.placeBelow, FileTree.place, walkPath, origin, hwalk, h.working]

/-- What is read depends on no other file. -/
theorem loadBelow_congr (h : tree.SameNames other) 
    (hfile : other.file? (tree.location root path) = tree.file? (tree.location root path)) :
    other.loadBelow root path = tree.loadBelow root path := by
  unfold loadBelow
  rw [belowRoot?_eq]
  split
  · rfl
  · next full hfull =>
    split at hfull <;> cases hfull
    next hbelow =>
    rw [h.placeBelow]
    split
    · next place hplace =>
      rw [placeBelow_ok hplace, spelled_below hbelow, hfile]
    · rfl
    · rfl

/-! ### Paths of imports -/

theorem withoutLeadingSlashes_append {slashes : String} (h : ∀ c ∈ slashes.toList, c = '/') (path : String) :
    withoutLeadingSlashes (slashes ++ path) = withoutLeadingSlashes path := by
  rw [withoutLeadingSlashes, String.toList_append,
    List.dropWhile_append_of_pos fun c hc => beq_iff_eq.2 (h c hc), withoutLeadingSlashes]

theorem not_mem_components_plainPath {names : List (List Char)} (rooted : Bool)
    (h : ∀ name ∈ names, IsPlainPart name) : ".." ∉ components (String.ofList (plainPath rooted names)) := by
  rw [components, String.toList_ofList, pathParts_plainPath rooted h, List.mem_map]
  rintro ⟨name, hname, heq⟩
  exact (h name hname).ne_points (String.ofList_injective heq)

/-- A relative path is resolved to one without double points. -/
theorem not_mem_components_resolveUri {href : String} (hrel : isAbsolute href.toList = false) (base : Option String) :
    ".." ∉ components (resolveUri href base) := by
  cases base with
  | none =>
    obtain ⟨names, hnames, hpath⟩ := exists_normalizePath href
    rw [resolveUri, hrel, if_neg Bool.false_ne_true, hpath]
    exact not_mem_components_plainPath _ hnames
  | some base =>
    rw [resolveUri_eq hrel]
    exact not_mem_components_plainPath _ fun _ => isPlainPart_of_mem_resolvedNames

/-! ### Containment -/

/-- A path is refused since it might lead out of the root. -/
structure Rejects (tree : FileTree) (root path : String) : Prop where
  refused : belowRoot? root path = none
  load : (tree.provider root).load path = .error (.outsideRoot path)
  has : (tree.provider root).has path = false

/-- A path is taken, and what is read and tested is the file at one place. -/
structure ReadsAt (tree : FileTree) (root path : String) (place : Place) : Prop where
  taken : ∃ full, belowRoot? root path = some full ∧ tree.spelled full = place
  load : ∀ octets, (tree.provider root).load path = .ok octets → tree.file? place = some octets
  has : (tree.provider root).has path ↔ ∃ octets, (tree.provider root).load path = .ok octets
  /-- No other file counts. -/
  only : ∀ other, tree.SameNames other → other.file? place = tree.file? place →
    (other.provider root).load path = (tree.provider root).load path
  /-- The file is read if the root leads to a directory and the path ends in a name. -/
  found : ∀ start, tree.IsFileSystem → tree.LeadsTo root start →
    (∃ last ∈ (names path).getLast?, ¬IsSilent last) → (root = "" → isPath (withoutLeadingSlashes path)) →
      ∀ octets, tree.file? place = some octets → (tree.provider root).load path = .ok octets

theorem rejects (h : ".." ∈ components path) (tree : FileTree) (root : String) : tree.Rejects root path where
  refused := by rw [belowRoot?_eq, if_pos h]
  load := by rw [load_provider, loadBelow_rejected h]
  has := by
    rw [has_provider, loadBelow_rejected h]
    rfl

theorem readsAt (h : ".." ∉ components path) (tree : FileTree) (root : String) :
    tree.ReadsAt root path (tree.location root path) where
  taken := ⟨_, by rw [belowRoot?_eq, if_neg h], spelled_below h root⟩
  load octets hload := by
    rw [load_provider] at hload
    exact (loadBelow_ok hload).2
  has := by
    rw [has_provider, load_provider]
    cases tree.loadBelow root path <;> simp [Except.toOption]
  only other hsame hfile := by
    rw [load_provider, load_provider, loadBelow_congr hsame hfile]
  found start hsystem hroot hlast hpath octets hfile := by
    rw [load_provider]
    exact hsystem.loadBelow hroot h hlast hpath hfile

/-- Paths that differ in leading slashes lead to the same file. -/
theorem toOption_loadBelow {other : String} (h : belowRoot? root path = belowRoot? root other) :
    (tree.loadBelow root path).toOption = (tree.loadBelow root other).toOption := by
  unfold loadBelow
  rw [h]
  cases belowRoot? root other with
  | none => rfl
  | some full =>
    dsimp only
    cases tree.placeBelow root full with
    | error problem => cases problem <;> rfl
    | ok place =>
      dsimp only
      cases tree.file? place <;> rfl

theorem template_provider (h : (tree.provider root).template path = .ok text) : ∃ octets,
    (tree.provider root).load path = .ok octets ∧ decodeUtf8 octets = .ok text := by
  have hload : (tree.provider root).loadText path = .ok text := by
    unfold ResourceProvider.template at h
    split at h <;> cases h
    assumption
  obtain ⟨octets, hoctets, h⟩ := bind_eq_ok.1 hload
  split at h <;> cases h
  exact ⟨octets, hoctets, ‹_›⟩

/-- A path with double points is refused, and of any other one file is read, at the root with the components of the
path behind it, none of them double points. Slashes before a path make no difference. So what an import is resolved to
is read below the root, wherever it is imported from, and only absolute paths are refused; and all texts of a closure
come from below the root. -/
theorem imports_below_root (tree : FileTree) (root : String) :
    (∀ path, ".." ∈ names path → tree.Rejects root path) ∧
    (∀ path, ".." ∉ names path →
      ".." ∉ components path ∧ tree.ReadsAt root path (tree.spelled root ++ components path)) ∧
    (∀ slashes path : String, (∀ c ∈ slashes.toList, c = '/') →
      belowRoot? root (slashes ++ path) = belowRoot? root path ∧ components (slashes ++ path) = components path ∧
        ((tree.provider root).load (slashes ++ path)).toOption = ((tree.provider root).load path).toOption) ∧
    (∀ href base, isAbsolute href.toList ∧ tree.Rejects root (resolveUri href base) ∨
      ".." ∉ components (resolveUri href base) ∧
        tree.ReadsAt root (resolveUri href base) (tree.spelled root ++ components (resolveUri href base))) ∧
    ∀ source found, importClosure (tree.provider root) source = .ok found → ∀ i ∈ found, ∃ octets,
      ".." ∉ components i.path ∧ tree.file? (tree.spelled root ++ components i.path) = some octets ∧
        decodeUtf8 octets = .ok i.text := by
  refine ⟨fun path h => rejects (mem_components.2 h) tree root, fun path h => ?_, fun slashes path h => ?_,
    fun href base => ?_, fun source found h i hi => ?_⟩
  · have hbelow := mem_components.not.2 h
    exact ⟨hbelow, readsAt hbelow tree root⟩
  · have hsame := withoutLeadingSlashes_append h path
    have hpath : belowRoot? root (slashes ++ path) = belowRoot? root path := by rw [belowRoot?, hsame, belowRoot?]
    refine ⟨hpath, ?_, ?_⟩
    · rw [← components_withoutLeadingSlashes, hsame, components_withoutLeadingSlashes]
    · rw [load_provider, load_provider, toOption_loadBelow hpath]
  · by_cases hbelow : ".." ∈ components (resolveUri href base)
    · refine .inl ⟨?_, rejects hbelow tree root⟩
      by_contra hrel
      exact not_mem_components_resolveUri (Bool.eq_false_iff.2 hrel) base hbelow
    · exact .inr ⟨hbelow, readsAt hbelow tree root⟩
  · obtain ⟨octets, hload, htext⟩ := template_provider (importClosure_serves h i hi)
    rw [load_provider] at hload
    obtain ⟨hbelow, hfile⟩ := loadBelow_ok hload
    exact ⟨octets, hbelow, hfile, htext⟩

/-- A site next to a file that it does not hold. -/
def site : FileTree where
  entries := [(["site"], .directory), (["site", "lib"], .directory), (["site", "lib", "m.pt"], .file [109]),
    (["secret"], .file [115])]
  working := []

/-- A macro is imported from a page; a path with double points leads nowhere, however it starts. -/
theorem imports_below_root_site :
    (site.provider "site").load (resolveUri "..//lib/./m.pt" (some "t/page.pt")) = .ok [109] ∧
    (site.provider "site").load (resolveUri "/lib/../../secret" (some "t/page.pt")) =
      .error (.outsideRoot "/lib/../../secret") ∧
    belowRoot? "site" ("//" ++ "lib/m.pt") = belowRoot? "site" "lib/m.pt" := by
  have hsystem : site.IsFileSystem := by
    unfold IsFileSystem
    decide +kernel
  have hroot : site.LeadsTo "site" ["site"] := ⟨by decide +kernel, .inl (by decide +kernel)⟩
  have hlast : ∃ last ∈ (names (resolveUri "..//lib/./m.pt" (some "t/page.pt"))).getLast?, ¬IsSilent last :=
    ⟨"m.pt", by decide +kernel, by decide +kernel⟩
  have habsolute : resolveUri "/lib/../../secret" (some "t/page.pt") = "/lib/../../secret" := by decide +kernel
  obtain ⟨hrejects, -, hslashes, himports, -⟩ := imports_below_root site "site"
  refine ⟨?_, ?_, (hslashes "//" "lib/m.pt" (by simp)).1⟩
  · rcases himports "..//lib/./m.pt" (some "t/page.pt") with ⟨habsolute, -⟩ | ⟨-, hreads⟩
    · exact absurd habsolute (by decide +kernel)
    · exact hreads.found _ hsystem hroot hlast (fun hempty => absurd hempty (by decide)) _ (by decide +kernel)
  · rw [habsolute]
    exact (hrejects "/lib/../../secret" (by decide +kernel)).load

end FileTree

end MarkupTemplate
