import Mathlib.Data.List.Chain
import MarkupTemplate.Import.Uri

/-!
# Resolved paths

A path in its plain form is written from names between single slashes (`plainPath`), and gives them back when it is cut
(`pathParts_plainPath`). So plain paths stay as they are (`normalizePath_plainPath`), and what a relative path is
resolved to is one (`resolveUri_eq`). It is rooted as the path of the importing template is, and so are the paths of all
that is imported from there (`isRooted_imports`). Two slashes never stand together in it (`SinglySlashed`): a URI loses
one of the slashes behind the scheme (`resolveUri_scheme`).
-/

namespace MarkupTemplate

open Text

/-- A part that stays in a plain path. -/
structure IsPlainPart (part : List Char) : Prop where
  ne_nil : part ≠ []
  ne_point : part ≠ ['.']
  ne_points : part ≠ ['.', '.']
  no_slash : '/' ∉ part

/-- Names between slashes, after one if the path is rooted. -/
def plainPath (rooted : Bool) (names : List (List Char)) : List Char :=
  if rooted then '/' :: ['/'].intercalate names else ['/'].intercalate names

/-- The parts that double points leave. -/
def keptParts (parts : List (List Char)) : List (List Char) :=
  (parts.foldl addPart []).reverse

variable {part path : List Char} {parts names : List (List Char)}

theorem writePath_eq (rooted : Bool) (parts : List (List Char)) :
    writePath rooted parts = String.ofList (plainPath rooted (keptParts parts)) :=
  rfl

/-! ### Parts -/

theorem splitAll_eq_splitOn (sep : Char) (cs : List Char) : splitAll sep cs = cs.splitOn sep := by
  induction cs with
  | nil => rfl
  | cons c cs ih =>
    rw [splitAll, ih, List.splitOn_cons_eq_if_modifyHead]
    cases h : cs.splitOn sep with
    | nil => exact absurd h (by simp)
    | cons part parts => rfl

theorem not_mem_of_mem_splitAll {sep : Char} {cs : List Char} (h : part ∈ splitAll sep cs) : sep ∉ part := by
  induction cs generalizing part with
  | nil =>
    rw [List.mem_singleton.1 h]
    exact List.not_mem_nil
  | cons c cs ih =>
    rw [splitAll] at h
    split at h
    · next hcs =>
      rw [splitAll_eq_splitOn] at hcs
      exact absurd hcs (by simp)
    · next first rest hcs =>
      rw [hcs] at ih
      split at h
      · rcases List.mem_cons.1 h with rfl | h
        · exact List.not_mem_nil
        · exact ih h
      · next hc =>
        rcases List.mem_cons.1 h with rfl | h
        · rw [List.mem_cons, not_or]
          exact ⟨fun heq => hc (beq_iff_eq.2 heq.symm), ih (List.mem_cons_self ..)⟩
        · exact ih (List.mem_cons_of_mem _ h)

theorem splitAll_append_slash (before after : List Char) :
    splitAll '/' (before ++ '/' :: after) = splitAll '/' before ++ splitAll '/' after := by
  simp only [splitAll_eq_splitOn, List.splitOn_append_cons_self]

theorem pathParts_append_slash (before after : List Char) :
    pathParts (before ++ '/' :: after) = pathParts before ++ pathParts after := by
  rw [pathParts, splitAll_append_slash, List.filter_append]
  rfl

theorem mem_pathParts : part ∈ pathParts path ↔ part ∈ splitAll '/' path ∧ part ≠ [] ∧ part ≠ ['.'] := by
  simp [pathParts]

theorem splitAll_intercalate (h : ∀ name ∈ names, IsPlainPart name) (hne : names ≠ []) :
    splitAll '/' (['/'].intercalate names) = names := by
  rw [splitAll_eq_splitOn, List.splitOn_intercalate '/' (fun name hname => (h name hname).no_slash) hne]

theorem pathParts_intercalate (h : ∀ name ∈ names, IsPlainPart name) : pathParts (['/'].intercalate names) = names := by
  cases names with
  | nil => rfl
  | cons name rest =>
    rw [pathParts, splitAll_intercalate h (by simp), List.filter_eq_self]
    intro n hn
    simp [(h n hn).ne_nil, (h n hn).ne_point]

theorem pathParts_plainPath (rooted : Bool) (h : ∀ name ∈ names, IsPlainPart name) :
    pathParts (plainPath rooted names) = names := by
  cases rooted with
  | false => exact pathParts_intercalate h
  | true => exact (pathParts_append_slash [] _).trans (pathParts_intercalate h)

/-! ### Double points -/

theorem foldl_addPart (h : ∀ part ∈ parts, part ≠ ['.', '.']) (before : List (List Char)) :
    parts.foldl addPart before = parts.reverse ++ before := by
  induction parts generalizing before with
  | nil => rfl
  | cons part parts ih =>
    obtain ⟨hpart, hparts⟩ := List.forall_mem_cons.1 h
    rw [List.foldl_cons, addPart, if_neg hpart, ih hparts, List.reverse_cons, List.append_assoc]
    rfl

theorem mem_foldl_addPart {before : List (List Char)} (h : part ∈ parts.foldl addPart before) :
    part ∈ before ∨ part ∈ parts ∧ part ≠ ['.', '.'] := by
  induction parts generalizing before with
  | nil => exact .inl h
  | cons p parts ih =>
    rcases ih h with h | ⟨h, hne⟩
    · rw [addPart] at h
      split at h
      · exact .inl (List.mem_of_mem_tail h)
      · next hp =>
        rcases List.mem_cons.1 h with rfl | h
        · exact .inr ⟨List.mem_cons_self .., hp⟩
        · exact .inl h
    · exact .inr ⟨List.mem_cons_of_mem _ h, hne⟩

theorem keptParts_eq_self (h : ∀ part ∈ parts, part ≠ ['.', '.']) : keptParts parts = parts := by
  rw [keptParts, foldl_addPart h, List.append_nil, List.reverse_reverse]

theorem isPlainPart_of_mem_keptParts (hparts : ∀ part ∈ parts, ∃ path, part ∈ pathParts path)
    (h : part ∈ keptParts parts) : IsPlainPart part := by
  obtain ⟨hmem, hpoints⟩ := (mem_foldl_addPart (List.mem_reverse.1 h)).resolve_left List.not_mem_nil
  obtain ⟨path, hpath⟩ := hparts part hmem
  obtain ⟨hsplit, hnil, hpoint⟩ := mem_pathParts.1 hpath
  exact ⟨hnil, hpoint, hpoints, not_mem_of_mem_splitAll hsplit⟩

/-! ### Plain paths -/

theorem isRooted_plainPath (rooted : Bool) (h : ∀ name ∈ names, IsPlainPart name) :
    isRooted (plainPath rooted names) = rooted := by
  cases rooted with
  | true => rfl
  | false =>
    rcases names with _ | ⟨name, rest⟩
    · rfl
    · have hname := h name (List.mem_cons_self ..)
      rcases name with _ | ⟨c, cs⟩
      · exact absurd rfl hname.ne_nil
      · have hc : c ≠ '/' := fun heq => hname.no_slash (heq ▸ List.mem_cons_self ..)
        cases rest <;> simp [plainPath, isRooted, hc, List.intercalate_cons_cons]

/-- Plain paths stay as they are. -/
theorem normalizePath_plainPath (rooted : Bool) (h : ∀ name ∈ names, IsPlainPart name) :
    normalizePath (String.ofList (plainPath rooted names)) = String.ofList (plainPath rooted names) := by
  rw [normalizePath, String.toList_ofList, isRooted_plainPath rooted h, pathParts_plainPath rooted h, writePath_eq,
    keptParts_eq_self fun name hname => (h name hname).ne_points]

/-- No two slashes stand together. -/
def SinglySlashed (path : List Char) : Prop :=
  path.IsChain fun c d => c = '/' → d ≠ '/'

theorem singlySlashed_of_not_mem (h : '/' ∉ path) : SinglySlashed path := by
  induction path with
  | nil => exact .nil
  | cons c cs ih =>
    rw [List.mem_cons, not_or] at h
    exact List.isChain_cons.2 ⟨fun _ _ hc => absurd hc.symm h.1, ih h.2⟩

theorem singlySlashed_cons_slash (h : SinglySlashed path) (hrooted : isRooted path = false) :
    SinglySlashed ('/' :: path) :=
  List.isChain_cons.2 ⟨fun d hd _ hslash => by simp [isRooted, Option.mem_def.1 hd, hslash] at hrooted, h⟩

theorem singlySlashed_intercalate (h : ∀ name ∈ names, IsPlainPart name) : SinglySlashed (['/'].intercalate names) := by
  induction names with
  | nil => exact .nil
  | cons name rest ih =>
    obtain ⟨hname, hrest⟩ := List.forall_mem_cons.1 h
    have hfirst := singlySlashed_of_not_mem hname.no_slash
    cases rest with
    | nil => simpa using hfirst
    | cons next rest =>
      rw [List.intercalate_cons_cons, List.append_assoc]
      refine List.isChain_append.2 ⟨hfirst, singlySlashed_cons_slash (ih hrest) (isRooted_plainPath false hrest), ?_⟩
      exact fun c hc _ _ hslash => absurd (hslash ▸ List.mem_of_mem_getLast? hc) hname.no_slash

theorem singlySlashed_plainPath (rooted : Bool) (h : ∀ name ∈ names, IsPlainPart name) :
    SinglySlashed (plainPath rooted names) := by
  have hnames := singlySlashed_intercalate h
  cases rooted with
  | false => exact hnames
  | true => exact singlySlashed_cons_slash hnames (isRooted_plainPath false h)

theorem occursIn_of_singlySlashed (h : SinglySlashed path) : occursIn "://".toList path = false := by
  refine Bool.eq_false_iff.2 fun hoccurs => ?_
  obtain ⟨around, haround⟩ := Option.isSome_iff_exists.1 hoccurs
  have hslashes : SinglySlashed ['/', '/'] := by
    refine List.IsChain.infix h ⟨around.1 ++ [':'], around.2, ?_⟩
    rw [splitAround?_append haround, List.append_assoc around.1]
    rfl
  exact (List.isChain_cons.1 hslashes).1 '/' rfl rfl rfl

/-! ### Resolving -/

/-- The last part of the path is a name or double points. -/
def NamesFile (path : List Char) : Prop :=
  ∃ part ∈ (splitAll '/' path).getLast?, part ≠ [] ∧ part ≠ ['.']

theorem NamesFile.pathParts_ne_nil (h : NamesFile path) : pathParts path ≠ [] := by
  obtain ⟨part, hpart, hname⟩ := h
  exact List.ne_nil_of_mem (mem_pathParts.2 ⟨List.mem_of_mem_getLast? hpart, hname⟩)

theorem exists_normalizePath (path : String) : ∃ names, (∀ name ∈ names, IsPlainPart name) ∧
    normalizePath path = String.ofList (plainPath (isRooted path.toList) names) :=
  ⟨keptParts (pathParts path.toList), fun _ h => isPlainPart_of_mem_keptParts (fun _ hp => ⟨_, hp⟩) h, rfl⟩

/-- The names in the path that a relative path is resolved to. -/
def resolvedNames (href base : List Char) : List (List Char) :=
  keptParts ((pathParts base).dropLast ++ pathParts href)

theorem isPlainPart_of_mem_resolvedNames {href base : List Char} (h : part ∈ resolvedNames href base) :
    IsPlainPart part := by
  refine isPlainPart_of_mem_keptParts (fun p hp => ?_) h
  rcases List.mem_append.1 hp with hp | hp
  · exact ⟨base, List.dropLast_subset _ hp⟩
  · exact ⟨href, hp⟩

variable {href base : String}

/-- What a relative path is resolved to is plain. -/
theorem resolveUri_eq (hrel : isAbsolute href.toList = false) (base : String) : resolveUri href (some base) =
    String.ofList (plainPath (isRooted base.toList && !(pathParts base.toList).isEmpty)
      (resolvedNames href.toList base.toList)) := by
  rw [resolveUri, hrel, if_neg Bool.false_ne_true]
  rfl

theorem isRooted_resolveUri (hrel : isAbsolute href.toList = false) (base : String) :
    isRooted (resolveUri href (some base)).toList = (isRooted base.toList && !(pathParts base.toList).isEmpty) := by
  rw [resolveUri_eq hrel, String.toList_ofList, isRooted_plainPath _ fun _ => isPlainPart_of_mem_resolvedNames]

theorem isRooted_resolveUri_of_namesFile (hrel : isAbsolute href.toList = false) (hbase : NamesFile base.toList) :
    isRooted (resolveUri href (some base)).toList = isRooted base.toList := by
  simp [isRooted_resolveUri hrel, hbase.pathParts_ne_nil]

/-! ### Imports of imports -/

/-- The last part of the path is a name. -/
def EndsInName (path : List Char) : Prop :=
  ∃ name ∈ (splitAll '/' path).getLast?, IsPlainPart name

theorem EndsInName.namesFile (h : EndsInName path) : NamesFile path := by
  obtain ⟨name, hlast, hname⟩ := h
  exact ⟨name, hlast, hname.ne_nil, hname.ne_point⟩

theorem endsInName_plainPath (rooted : Bool) {name : List Char} (h : ∀ n ∈ names ++ [name], IsPlainPart n) :
    EndsInName (plainPath rooted (names ++ [name])) := by
  have hsplit := splitAll_intercalate h (by simp)
  refine ⟨name, ?_, h name (by simp)⟩
  cases rooted with
  | false => simp [plainPath, hsplit]
  | true =>
    show name ∈ (splitAll '/' ([] ++ '/' :: ['/'].intercalate (names ++ [name]))).getLast?
    rw [splitAll_append_slash, hsplit]
    simp

/-- A name at the end is not taken back. -/
theorem keptParts_append_name {name : List Char} (h : name ≠ ['.', '.']) (parts : List (List Char)) :
    keptParts (parts ++ [name]) = keptParts parts ++ [name] := by
  rw [keptParts, List.foldl_append, List.foldl_cons, List.foldl_nil, addPart, if_neg h, List.reverse_cons]
  rfl

theorem EndsInName.resolveUri (h : EndsInName href.toList) (hrel : isAbsolute href.toList = false) (base : String) :
    EndsInName (resolveUri href (some base)).toList := by
  obtain ⟨name, hlast, hname⟩ := h
  obtain ⟨before, hsplit⟩ := List.getLast?_eq_some_iff.1 hlast
  obtain ⟨parts, hparts⟩ : ∃ parts, pathParts href.toList = parts ++ [name] := by
    refine ⟨before.filter fun part => !part.isEmpty && part != ['.'], ?_⟩
    rw [pathParts, hsplit, List.filter_append]
    simp [hname.ne_nil, hname.ne_point]
  have hnames : resolvedNames href.toList base.toList =
      keptParts ((pathParts base.toList).dropLast ++ parts) ++ [name] := by
    rw [resolvedNames, hparts, ← List.append_assoc, keptParts_append_name hname.ne_points]
  rw [resolveUri_eq hrel, String.toList_ofList, hnames]
  exact endsInName_plainPath _ fun n hn => isPlainPart_of_mem_resolvedNames (hnames ▸ hn)

/-- Along relative imports of named files the paths are all rooted, or none is. -/
theorem isRooted_imports {hrefs : List String} (hbase : NamesFile base.toList)
    (h : ∀ href ∈ hrefs, isAbsolute href.toList = false ∧ EndsInName href.toList) :
    isRooted (hrefs.foldl (fun base href => resolveUri href (some base)) base).toList = isRooted base.toList := by
  induction hrefs generalizing base with
  | nil => rfl
  | cons href hrefs ih =>
    obtain ⟨⟨hrel, hname⟩, hrest⟩ := List.forall_mem_cons.1 h
    rw [List.foldl_cons, ih (hname.resolveUri hrel base).namesFile hrest, isRooted_resolveUri_of_namesFile hrel hbase]

/-! ### What a relative path is resolved to -/

/-- The two slashes of a URI count as one. -/
theorem resolveUri_scheme (href scheme rest : String) :
    resolveUri href (some (scheme ++ "://" ++ rest)) = resolveUri href (some (scheme ++ ":/" ++ rest)) := by
  have htwo : (scheme ++ "://" ++ rest).toList = (scheme.toList ++ [':']) ++ '/' :: ([] ++ '/' :: rest.toList) := by
    simp
  have hone : (scheme ++ ":/" ++ rest).toList = (scheme.toList ++ [':']) ++ '/' :: rest.toList := by simp
  have hparts : pathParts (scheme ++ "://" ++ rest).toList = pathParts (scheme ++ ":/" ++ rest).toList := by
    rw [htwo, hone, pathParts_append_slash, pathParts_append_slash, pathParts_append_slash]
    rfl
  have hrooted : isRooted (scheme ++ "://" ++ rest).toList = isRooted (scheme ++ ":/" ++ rest).toList := by
    rw [htwo, hone]
    cases scheme.toList <;> rfl
  rw [resolveUri, resolveUri]
  dsimp only
  rw [hparts, hrooted]

/-- What a relative path is resolved to is rooted if the base is and has a part, as a base has that names a file; it is
written from names; it holds no URI, so the base with a URI is lost; and it stays as it is when it is resolved again.
Plain paths stay plain. -/
theorem resolveUri_relative (href base : String) (hrel : isAbsolute href.toList = false) :
    let path := resolveUri href (some base)
    (isRooted path.toList ↔ isRooted base.toList ∧ pathParts base.toList ≠ []) ∧
    (NamesFile base.toList → isRooted path.toList = isRooted base.toList) ∧
    (∃ names, (∀ name ∈ names, IsPlainPart name) ∧ path.toList = plainPath (isRooted path.toList) names) ∧
    occursIn "://".toList path.toList = false ∧
    (∀ scheme rest, base = scheme ++ "://" ++ rest → path = resolveUri href (some (scheme ++ ":/" ++ rest))) ∧
    resolveUri path none = path ∧ (isAbsolute path.toList → ∀ other, resolveUri path (some other) = path) ∧
    ∀ p, normalizePath (normalizePath p) = normalizePath p := by
  intro path
  have hnames : ∀ name ∈ resolvedNames href.toList base.toList, IsPlainPart name :=
    fun _ => isPlainPart_of_mem_resolvedNames
  have hpath : path = _ := resolveUri_eq hrel base
  have hrooted : isRooted path.toList = _ := isRooted_resolveUri hrel base
  have hchars : path.toList = plainPath (isRooted path.toList) (resolvedNames href.toList base.toList) := by
    rw [hrooted, hpath, String.toList_ofList]
  refine ⟨?_, fun hfile => isRooted_resolveUri_of_namesFile hrel hfile, ⟨_, hnames, hchars⟩, ?_, ?_, ?_, ?_, ?_⟩
  · rw [hrooted]
    simp
  · rw [hchars]
    exact occursIn_of_singlySlashed (singlySlashed_plainPath _ hnames)
  · rintro scheme rest rfl
    exact resolveUri_scheme href scheme rest
  · rw [resolveUri]
    split
    · rfl
    · rw [hpath]
      exact normalizePath_plainPath _ hnames
  · intro habsolute other
    rw [resolveUri, if_pos habsolute]
  · intro p
    obtain ⟨names, hnames, hp⟩ := exists_normalizePath p
    rw [hp]
    exact normalizePath_plainPath _ hnames

theorem resolveUri_relative_parentFolder :
    let path := resolveUri "../c/base.pt" (some "/t/main.pt")
    isRooted path.toList = true ∧ resolveUri path none = path := by
  have hfile : NamesFile "/t/main.pt".toList := ⟨"main.pt".toList, by decide, by decide, by decide⟩
  obtain ⟨-, hrooted, -, -, -, hagain, -⟩ := resolveUri_relative "../c/base.pt" "/t/main.pt" (by decide)
  exact ⟨hrooted hfile, hagain⟩

/-- Beside a URI a relative path is no URI any more, and beside a point at the root it is not rooted. -/
theorem resolveUri_uriBase :
    resolveUri "b.pt" (some "http://h/a.pt") = "http:/h/b.pt" ∧ resolveUri "x" (some "/.") = "x" := by
  decide

end MarkupTemplate
