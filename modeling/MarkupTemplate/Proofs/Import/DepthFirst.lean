import MarkupTemplate.Proofs.Import.Asking
import MarkupTemplate.Proofs.Import.Closure

/-!
# The closure of a template, depth first

`DepthFirst` lists the templates that some targets lead to: each target with its text, unless it has been met,
then whatever its own targets lead to, then the other targets. What a scan finds is such a list
(`ImportScan.follow_iff`), and such a list holds the templates that are imported, each once and no others
(`importClosure_exact`).
-/

namespace MarkupTemplate

/-- The paths met once some templates have been found. -/
def metWith (found : List ImportedSource) (seen : List String) : List String :=
  (found.map ImportedSource.path).reverse ++ seen

/-- The templates that targets lead to when the paths `seen` have been met, through at most `depth` imports:
each one before those that its own targets lead to, and these in the order in which its text names them. -/
inductive DepthFirst (P : ResourceProvider) :
    Nat → List String → List String → List ImportedSource → Prop
  | nil {depth : Nat} {seen : List String} : DepthFirst P depth seen [] []
  | again {depth : Nat} {seen targets : List String} {target : String} {found : List ImportedSource}
      (hs : target ∈ seen) (h : DepthFirst P depth seen targets found) :
      DepthFirst P depth seen (target :: targets) found
  | first {depth : Nat} {seen below targets : List String} {target text : String}
      {inside behind : List ImportedSource} (hs : target ∉ seen) (ht : P.template target = .ok text)
      (hi : importTargets ⟨text, some target⟩ = .ok below)
      (hin : DepthFirst P depth (target :: seen) below inside)
      (hbehind : DepthFirst P (depth + 1) (metWith (⟨target, text⟩ :: inside) seen) targets behind) :
      DepthFirst P (depth + 1) seen (target :: targets) (⟨target, text⟩ :: inside ++ behind)

variable {P : ResourceProvider} {source : TemplateSource} {depth : Nat} {seen targets : List String}
  {found : List ImportedSource}

theorem metWith_append (found more : List ImportedSource) (seen : List String) :
    metWith (found ++ more) seen = metWith more (metWith found seen) := by
  simp only [metWith, List.map_append, List.reverse_append, List.append_assoc]

theorem metWith_cons (i : ImportedSource) (found : List ImportedSource) (seen : List String) :
    metWith (i :: found) seen = metWith found (i.path :: seen) :=
  metWith_append [i] found seen

theorem mem_metWith {path : String} :
    path ∈ metWith found seen ↔ path ∈ found.map ImportedSource.path ∨ path ∈ seen := by
  rw [metWith, List.mem_append, List.mem_reverse]

/-! ### What a scan finds -/

namespace ImportScan

variable {scan s : ImportScan}

/-- The scan after some templates have been found. -/
def extend (scan : ImportScan) (found : List ImportedSource) : ImportScan :=
  ⟨metWith found scan.visited, scan.found ++ found⟩

theorem extend_extend (scan : ImportScan) (found more : List ImportedSource) :
    (scan.extend found).extend more = scan.extend (found ++ more) := by
  rw [extend, extend, extend, metWith_append, List.append_assoc]

theorem visitAll_depthFirst (hfollow : ∀ {source scan s}, follow P depth source scan = .ok s →
      ∃ targets found below, importTargets source = .ok targets ∧ depth = below + 1 ∧
        DepthFirst P below scan.visited targets found ∧ s = scan.extend found) :
    ∀ {targets : List String} {scan : ImportScan}, targets.foldlM (visit P (follow P depth)) scan = .ok s →
      ∃ found, DepthFirst P depth scan.visited targets found ∧ s = scan.extend found
  | [], scan, h => by
    cases h
    exact ⟨[], .nil, by rw [extend, List.append_nil]; rfl⟩
  | target :: targets, scan, h => by
    rw [List.foldlM_cons] at h
    obtain ⟨met, hmet, h⟩ := bind_eq_ok.1 h
    obtain ⟨behind, hbehind, rfl⟩ := visitAll_depthFirst hfollow h
    rcases visit_ok hmet with ⟨hseen, rfl⟩ | ⟨hseen, text, htext, hmet⟩
    · exact ⟨behind, .again (List.contains_iff_mem.1 hseen) hbehind, rfl⟩
    · obtain ⟨below, inside, depth', hi, rfl, hin, rfl⟩ := hfollow hmet
      have hmet : extend ⟨target :: scan.visited, scan.found ++ [⟨target, text⟩]⟩ inside =
          scan.extend (⟨target, text⟩ :: inside) := by
        rw [extend, extend, metWith_cons, List.append_assoc]
        rfl
      rw [hmet] at hbehind ⊢
      refine ⟨⟨target, text⟩ :: inside ++ behind, ?_, extend_extend ..⟩
      exact .first (fun hm => hseen (List.contains_iff_mem.2 hm)) htext hi hin hbehind

theorem follow_depthFirst : ∀ depth {source scan s}, follow P depth source scan = .ok s →
    ∃ targets found below, importTargets source = .ok targets ∧ depth = below + 1 ∧
      DepthFirst P below scan.visited targets found ∧ s = scan.extend found
  | 0, _, _, _, h => by cases h
  | depth + 1, source, scan, s, h => by
    obtain ⟨targets, ht, h⟩ := bind_eq_ok.1 h
    obtain ⟨found, hf, rfl⟩ := visitAll_depthFirst (follow_depthFirst depth) h
    exact ⟨targets, found, depth, ht, rfl, hf, rfl⟩

theorem visitAll_of_depthFirst (h : DepthFirst P depth seen targets found) :
    ∀ scan : ImportScan, scan.visited = seen →
      targets.foldlM (visit P (follow P depth)) scan = .ok (scan.extend found) := by
  induction h with
  | nil =>
    intro scan _
    rw [extend, List.append_nil]
    rfl
  | again hs _ ih =>
    intro scan hscan
    rw [List.foldlM_cons, visit, hscan, if_pos (List.contains_iff_mem.2 hs)]
    exact ih scan hscan
  | @first depth seen below targets target text inside behind hs ht hi _ _ ihin ihbehind =>
    intro scan hscan
    have hfollow := ihin ⟨target :: scan.visited, scan.found ++ [⟨target, text⟩]⟩ (by rw [hscan])
    have hvisit : visit P (follow P (depth + 1)) scan target =
        .ok (scan.extend (⟨target, text⟩ :: inside)) := by
      rw [visit, hscan, if_neg (mt List.contains_iff_mem.1 hs), ← hscan]
      refine bind_eq_ok.2 ⟨text, ht, bind_eq_ok.2 ⟨below, hi, hfollow.trans ?_⟩⟩
      rw [extend, extend, metWith_cons, List.append_assoc]
      rfl
    rw [List.foldlM_cons, hvisit, ← extend_extend]
    exact ihbehind _ (by rw [← hscan]; rfl)

/-- A scan through `depth` more imports finds what stands in such a list, and nothing keeps it from doing so. -/
theorem follow_iff {scan s : ImportScan} : follow P (depth + 1) source scan = .ok s ↔
    ∃ targets found, importTargets source = .ok targets ∧
      DepthFirst P depth scan.visited targets found ∧ s = scan.extend found := by
  constructor
  · intro h
    obtain ⟨targets, found, below, ht, hd, hf, hs⟩ := follow_depthFirst _ h
    cases hd
    exact ⟨targets, found, ht, hf, hs⟩
  · rintro ⟨targets, found, ht, hf, rfl⟩
    exact bind_eq_ok.2 ⟨targets, ht, visitAll_of_depthFirst hf scan rfl⟩

end ImportScan

theorem importClosure_iff : importClosure P source = .ok found ↔
    ∃ targets, importTargets source = .ok targets ∧
      DepthFirst P maxImportDepth source.path.toList targets found := by
  constructor
  · intro h
    obtain ⟨s, hs, h⟩ := bind_eq_ok.1 h
    cases h
    obtain ⟨targets, found, ht, hf, rfl⟩ := ImportScan.follow_iff.1 hs
    exact ⟨targets, ht, hf⟩
  · rintro ⟨targets, ht, hf⟩
    exact bind_eq_ok.2 ⟨_, ImportScan.follow_iff.2 ⟨targets, found, ht, hf, rfl⟩, rfl⟩

/-! ### When a template takes its place -/

namespace ImportScan

/-- `visit`, but a template takes its place only when its own imports have been followed. -/
def visitLate (P : ResourceProvider) (f : Follower) (scan : ImportScan) (target : String) :
    Except TemplateFault ImportScan := do
  if scan.visited.contains target then return scan
  let text ← P.template target
  let s ← f ⟨text, some target⟩ ⟨target :: scan.visited, scan.found⟩
  return ⟨s.visited, s.found.insertIdx scan.found.length ⟨target, text⟩⟩

/-- `follow` with `visitLate`. -/
def followLate (P : ResourceProvider) : Nat → Follower
  | 0, _, _ => .error (.config .importTooDeep)
  | depth + 1, source, scan => do
    let targets ← importTargets source
    targets.foldlM (visitLate P (followLate P depth)) scan

/-- The scan with templates before those that it has found. -/
def behind (before : List ImportedSource) (scan : ImportScan) : ImportScan :=
  ⟨scan.visited, before ++ scan.found⟩

/-- What has been found before does not matter. -/
def IsFramed (f : Follower) : Prop :=
  ∀ source before scan, f source (scan.behind before) = behind before <$> f source scan

theorem visit_behind {f : Follower} (hf : IsFramed f) (before : List ImportedSource) (scan : ImportScan)
    (target : String) : visit P f (scan.behind before) target = behind before <$> visit P f scan target := by
  unfold visit
  by_cases hc : scan.visited.contains target
  · rw [if_pos hc]
    exact if_pos hc
  · rw [if_neg hc]
    refine (if_neg hc).trans ?_
    cases P.template target with
    | error fault => rfl
    | ok text =>
      have h := hf ⟨text, some target⟩ before ⟨target :: scan.visited, scan.found ++ [⟨target, text⟩]⟩
      rw [behind, ← List.append_assoc] at h
      exact h

theorem follow_isFramed : ∀ depth, IsFramed (follow P depth)
  | 0, _, _, _ => rfl
  | depth + 1, source, before, scan => by
    unfold follow
    cases importTargets source with
    | error fault => rfl
    | ok targets =>
      show targets.foldlM _ (scan.behind before) = behind before <$> targets.foldlM _ scan
      induction targets generalizing scan with
      | nil => rfl
      | cons target targets ih =>
        rw [List.foldlM_cons, List.foldlM_cons, visit_behind (follow_isFramed depth)]
        cases visit P (follow P depth) scan target with
        | error fault => rfl
        | ok met => exact ih met

theorem insertIdx_behind (before found : List ImportedSource) (i : ImportedSource) :
    (before ++ found).insertIdx before.length i = before ++ i :: found := by
  induction before with
  | nil => rfl
  | cons j before ih => exact congrArg (j :: ·) ih

theorem visitLate_eq {f : Follower} (hf : IsFramed f) (scan : ImportScan) (target : String) :
    visitLate P f scan target = visit P f scan target := by
  unfold visitLate visit
  split
  · rfl
  · cases P.template target with
    | error fault => rfl
    | ok text =>
      have hlate := hf ⟨text, some target⟩ scan.found ⟨target :: scan.visited, []⟩
      have hearly := hf ⟨text, some target⟩ (scan.found ++ [⟨target, text⟩]) ⟨target :: scan.visited, []⟩
      simp only [behind, List.append_nil] at hlate hearly
      show f _ _ >>= _ = f _ _
      rw [hlate, hearly]
      cases f ⟨text, some target⟩ ⟨target :: scan.visited, []⟩ with
      | error fault => rfl
      | ok s =>
        show Except.ok (ImportScan.mk s.visited ((scan.found ++ s.found).insertIdx scan.found.length _)) =
          Except.ok (ImportScan.mk s.visited (scan.found ++ [⟨target, text⟩] ++ s.found))
        rw [insertIdx_behind, List.append_assoc]
        rfl

theorem followLate_eq : ∀ depth source scan, followLate P depth source scan = follow P depth source scan
  | 0, _, _ => rfl
  | depth + 1, source, scan => by
    have hvisit : visitLate P (followLate P depth) = visit P (follow P depth) := by
      funext scan target
      rw [funext fun source => funext (followLate_eq depth source), visitLate_eq (follow_isFramed depth)]
    rw [followLate, hvisit]
    rfl

end ImportScan

/-! ### What such a list holds -/

namespace DepthFirst

theorem distinct (h : DepthFirst P depth seen targets found) :
    (found.map ImportedSource.path).Nodup ∧ ∀ i ∈ found, i.path ∉ seen := by
  induction h with
  | nil => exact ⟨List.nodup_nil, nofun⟩
  | again _ _ ih => exact ih
  | @first depth seen below targets target text inside behind hs _ _ _ _ ihin ihbehind =>
    obtain ⟨hinside, hnew⟩ := ihin
    obtain ⟨hbehind, hlater⟩ := ihbehind
    have hfirst : ((⟨target, text⟩ :: inside : List ImportedSource).map ImportedSource.path).Nodup := by
      refine List.nodup_cons.2 ⟨fun hm => ?_, hinside⟩
      obtain ⟨i, hi, hpath⟩ := List.mem_map.1 hm
      exact hnew i hi (hpath ▸ List.mem_cons_self)
    refine ⟨?_, fun i hi => ?_⟩
    · rw [List.map_append]
      refine List.nodup_append.2 ⟨hfirst, hbehind, ?_⟩
      rintro path hp _ hq rfl
      obtain ⟨i, hi, rfl⟩ := List.mem_map.1 hq
      exact hlater i hi (mem_metWith.2 (.inl hp))
    · rcases List.mem_append.1 hi with hi | hi
      · rcases List.mem_cons.1 hi with rfl | hi
        · exact hs
        · exact fun hm => hnew i hi (List.mem_cons_of_mem _ hm)
      · exact fun hm => hlater i hi (mem_metWith.2 (.inr hm))

theorem served (h : DepthFirst P depth seen targets found) : P.Serves found := by
  induction h with
  | nil => exact nofun
  | again _ _ ih => exact ih
  | first _ ht _ _ _ ihin ihbehind =>
    intro i hi
    rcases List.mem_append.1 hi with hi | hi
    · rcases List.mem_cons.1 hi with rfl | hi
      · exact ht
      · exact ihin i hi
    · exact ihbehind i hi

/-- Each target has been met or is listed, and so are the targets of all that is listed. -/
theorem closed (h : DepthFirst P depth seen targets found) :
    (∀ target ∈ targets, target ∈ metWith found seen) ∧
      ∀ i ∈ found, ∃ below, importTargets ⟨i.text, some i.path⟩ = .ok below ∧
        ∀ target ∈ below, target ∈ metWith found seen := by
  induction h with
  | nil => exact ⟨nofun, nofun⟩
  | again hs _ ih =>
    refine ⟨fun target ht => ?_, ih.2⟩
    rcases List.mem_cons.1 ht with rfl | ht
    · exact mem_metWith.2 (.inr hs)
    · exact ih.1 target ht
  | @first depth seen below targets target text inside behind _ _ hi _ _ ihin ihbehind =>
    obtain ⟨hbelow, hinside⟩ := ihin
    obtain ⟨htargets, hbehind⟩ := ihbehind
    rw [← metWith_append] at htargets hbehind
    have hmore : ∀ path ∈ metWith inside (target :: seen),
        path ∈ metWith (⟨target, text⟩ :: inside ++ behind) seen := by
      intro path hp
      rw [metWith_append, metWith_cons]
      exact mem_metWith.2 (.inr hp)
    refine ⟨fun other ho => ?_, fun i him => ?_⟩
    · rcases List.mem_cons.1 ho with rfl | ho
      · exact hmore _ (mem_metWith.2 (.inr List.mem_cons_self))
      · exact htargets other ho
    · rcases List.mem_append.1 him with him | him
      · rcases List.mem_cons.1 him with rfl | him
        · exact ⟨below, hi, fun other ho => hmore other (hbelow other ho)⟩
        · obtain ⟨ts, hts, hmem⟩ := hinside i him
          exact ⟨ts, hts, fun other ho => hmore other (hmem other ho)⟩
      · exact hbehind i him

/-- What is listed is imported, if that can be said of the targets and is handed on from each text to its
own. -/
theorem only {I : String → Prop} (h : DepthFirst P depth seen targets found)
    (hi : ∀ target ∈ targets, target ∉ seen → I target)
    (hnext : ∀ path text below target, I path → P.template path = .ok text →
      importTargets ⟨text, some path⟩ = .ok below → target ∈ below → target ∉ seen → I target) :
    ∀ i ∈ found, I i.path := by
  induction h with
  | nil => exact nofun
  | again _ _ ih => exact ih (fun target ht => hi target (List.mem_cons_of_mem _ ht)) hnext
  | @first depth seen below targets target text inside behind hs ht himports _ _ ihin ihbehind =>
    have hfirst := hi target List.mem_cons_self hs
    have hkeep : ∀ {other}, other ∉ metWith (⟨target, text⟩ :: inside) seen → other ∉ seen :=
      fun ho hm => ho (mem_metWith.2 (.inr hm))
    intro i him
    rcases List.mem_append.1 him with him | him
    · rcases List.mem_cons.1 him with rfl | him
      · exact hfirst
      · refine ihin (fun other ho hnew => ?_) (fun path text below other hp ht hb ho hnew => ?_) i him
        · exact hnext target text below other hfirst ht himports ho
            fun hm => hnew (List.mem_cons_of_mem _ hm)
        · exact hnext path text below other hp ht hb ho fun hm => hnew (List.mem_cons_of_mem _ hm)
    · exact ihbehind (fun other ho hnew => hi other (List.mem_cons_of_mem _ ho) (hkeep hnew))
        (fun path text below other hp ht hb ho hnew => hnext path text below other hp ht hb ho (hkeep hnew))
        i him

end DepthFirst

/-! ### The closure -/

/-- A path other than the template's own that the template imports, directly or through others. -/
inductive Imported (P : ResourceProvider) (source : TemplateSource) : String → Prop
  | direct {targets : List String} {target : String} (hi : importTargets source = .ok targets)
      (hm : target ∈ targets) (hne : source.path ≠ some target) : Imported P source target
  | next {path text target : String} {targets : List String} (h : Imported P source path)
      (ht : P.template path = .ok text) (hi : importTargets ⟨text, some path⟩ = .ok targets)
      (hm : target ∈ targets) (hne : source.path ≠ some target) : Imported P source target

/-- The list holds what a template imports, directly or through others. -/
structure IsClosure (P : ResourceProvider) (source : TemplateSource) (found : List ImportedSource) : Prop where
  distinct : (found.map ImportedSource.path).Nodup
  other : ∀ i ∈ found, source.path ≠ some i.path
  /-- Each template is listed with the text that the provider gives. -/
  served : P.Serves found
  /-- What the template or a listed one imports is listed, or is the template itself. -/
  closed : ∀ t, t = source ∨ (∃ i ∈ found, t = ⟨i.text, some i.path⟩) → ∃ targets,
    importTargets t = .ok targets ∧
      ∀ target ∈ targets, source.path = some target ∨ target ∈ found.map ImportedSource.path
  /-- Nothing else is listed. -/
  exact : ∀ path, path ∈ found.map ImportedSource.path ↔ Imported P source path
  /-- The order is that of a traversal depth first. -/
  order : ∃ targets, importTargets source = .ok targets ∧
    DepthFirst P maxImportDepth source.path.toList targets found

theorem isClosure_of_importClosure (h : importClosure P source = .ok found) : IsClosure P source found := by
  obtain ⟨targets, ht, hf⟩ := importClosure_iff.1 h
  obtain ⟨hdistinct, hnew⟩ := hf.distinct
  obtain ⟨htargets, hbelow⟩ := hf.closed
  have hmet : ∀ target ∈ metWith found source.path.toList,
      source.path = some target ∨ target ∈ found.map ImportedSource.path := by
    intro target hm
    rcases mem_metWith.1 hm with hm | hm
    · exact .inr hm
    · exact .inl (Option.mem_toList.1 hm)
  have hclosed : ∀ t, t = source ∨ (∃ i ∈ found, t = ⟨i.text, some i.path⟩) → ∃ targets,
      importTargets t = .ok targets ∧
        ∀ target ∈ targets, source.path = some target ∨ target ∈ found.map ImportedSource.path := by
    rintro t (rfl | ⟨i, hi, rfl⟩)
    · exact ⟨targets, ht, fun target hm => hmet target (htargets target hm)⟩
    · obtain ⟨below, hb, hmem⟩ := hbelow i hi
      exact ⟨below, hb, fun target hm => hmet target (hmem target hm)⟩
  have hne : ∀ {target}, target ∉ source.path.toList → source.path ≠ some target :=
    fun hn he => hn (Option.mem_toList.2 he)
  refine ⟨hdistinct, fun i hi he => hnew i hi (Option.mem_toList.2 he), hf.served, hclosed,
    fun path => ⟨fun hm => ?_, fun hp => ?_⟩, targets, ht, hf⟩
  · obtain ⟨i, hi, rfl⟩ := List.mem_map.1 hm
    refine hf.only (fun target hm hn => .direct ht hm (hne hn)) ?_ i hi
    exact fun path text below target hp htext hb hm hn => .next hp htext hb hm (hne hn)
  · induction hp with
    | direct hi hm hne =>
      obtain ⟨targets', ht', hmem⟩ := hclosed source (.inl rfl)
      rw [ht'] at hi
      cases hi
      exact (hmem _ hm).resolve_left hne
    | @next path text target _ _ htext hi hm hne ih =>
      obtain ⟨i, him, rfl⟩ := List.mem_map.1 ih
      -- the text is the one that is listed, since the provider gives one text only
      rw [hf.served i him] at htext
      cases htext
      obtain ⟨targets', ht', hmem⟩ := hclosed _ (.inr ⟨i, him, rfl⟩)
      rw [ht'] at hi
      cases hi
      exact (hmem _ hm).resolve_left hne

/-- `importClosure` with `visitLate`. -/
def importClosureLate (P : ResourceProvider) (source : TemplateSource) :
    Except TemplateFault (List ImportedSource) := do
  let scan ← ImportScan.followLate P (maxImportDepth + 1) source ⟨source.path.toList, []⟩
  return scan.found

/-- Whatever the provider, the imports of a template are collected asking for each path once at most. If that
succeeds, just the paths listed have been asked for, and the list is the closure of the template; and it
succeeds wherever there is such a list. When a template takes its place makes no difference. -/
theorem importClosure_exact (P : ResourceProvider) (source : TemplateSource) :
    (∃ asked, (importClosureIn P.ask source).after [] = (importClosure P source, asked) ∧ asked.Nodup ∧
      ∀ found, importClosure P source = .ok found →
        asked = found.map ImportedSource.path ∧ IsClosure P source found) ∧
    (∀ targets found, importTargets source = .ok targets →
      DepthFirst P maxImportDepth source.path.toList targets found → importClosure P source = .ok found) ∧
    importClosureLate P source = importClosure P source := by
  refine ⟨?_, fun targets found ht hf => importClosure_iff.2 ⟨targets, ht, hf⟩, ?_⟩
  · obtain ⟨asked, hrun, hnodup, hasked⟩ := importClosureIn_notes P source
    exact ⟨asked, hrun, hnodup, fun found hf => ⟨hasked found hf, isClosure_of_importClosure hf⟩⟩
  · rw [importClosureLate, ImportScan.followLate_eq]
    rfl

/-- Two templates import each other, and one of them the page. -/
def tangledStore : ResourceProvider :=
  (MemoryStore.ofTexts [("a", "<p metal:import=\"b;m\"/>"), ("b", "<p metal:import=\"a\"/>")]).provider

def tangledPage : TemplateSource :=
  ⟨"<p metal:import=\"a;x:./b\"/>", some "m"⟩

def tangledImports : List ImportedSource :=
  [⟨"a", "<p metal:import=\"b;m\"/>"⟩, ⟨"b", "<p metal:import=\"a\"/>"⟩]

theorem importClosure_tangled : importClosure tangledStore tangledPage = .ok tangledImports := by
  decide +kernel

theorem importClosure_exact_tangled :
    (importClosureIn tangledStore.ask tangledPage).after [] = (.ok tangledImports, ["a", "b"]) ∧
      IsClosure tangledStore tangledPage tangledImports ∧
      importClosureLate tangledStore tangledPage = .ok tangledImports ∧
      ∃ targets, importTargets tangledPage = .ok targets ∧
        DepthFirst tangledStore maxImportDepth ["m"] targets tangledImports ∧
        importClosure tangledStore tangledPage = .ok tangledImports := by
  obtain ⟨⟨asked, hrun, -, hasked⟩, hconverse, hlate⟩ := importClosure_exact tangledStore tangledPage
  obtain ⟨rfl, hclosure⟩ := hasked _ importClosure_tangled
  obtain ⟨targets, ht, horder⟩ := hclosure.order
  rw [importClosure_tangled] at hrun hlate
  exact ⟨hrun, hclosure, hlate, targets, ht, horder, hconverse targets _ ht horder⟩

end MarkupTemplate
