import MarkupTemplate.Proofs.Render.Accepted

/-!
# Macro names in a running template

A path that spells a macro is looked up among the names of its own unit when a template is compiled, and
among the variables when it is evaluated. The root frame binds the names of the main template, those under
an alias over its own. So both agree where the main template sees the same macro under the path
(`resolve_iff_of_compile`), which an import can change.
-/

namespace MarkupTemplate

/-! ### Paths that spell a macro -/

/-- The path spells a macro by its alias and name; the alias is empty for a unit's own macros. -/
inductive Path.Spells (p : Path) : String → String → Prop
  | own {name : String} (hr : p.root = "macros") (hs : p.segments = [name]) : p.Spells "" name
  | aliased {name : String} (hr : p.root ≠ "") (hs : p.segments = ["macros", name]) : p.Spells p.root name

namespace MacroNames

variable {names : MacroNames} {label : String}

theorem under_of_get? {own : Fields Nat} (h : names.get? label = some own) : names.under label = own := by
  rw [MacroNames.under, h]
  rfl

theorem get?_under_of_none (h : names.get? label = none) (name : String) :
    (names.under label).get? name = none := by
  rw [MacroNames.under, h]
  rfl

end MacroNames

namespace MacroRegistry

variable {names : MacroNames} {p : Path} {label name : String} {location : Location} {id : Nat}

theorem spells_of_resolveIn? (h : resolveIn? names p location = .ok (some id)) :
    ∃ label name, p.Spells label name := by
  unfold resolveIn? at h
  split at h
  · cases h
  · next label name hs =>
    refine ⟨label, name, ?_⟩
    unfold spelled? at hs
    split at hs
    · next segment hseg =>
      split at hs
      · next hr =>
        cases hs
        exact .own hr hseg
      · cases hs
    · next word segment hseg =>
      split at hs
      · next hr =>
        obtain ⟨rfl, hne, -⟩ := hr
        cases hs
        exact .aliased hne hseg
      · cases hs
    · cases hs

theorem resolveIn?_iff (h : p.Spells label name) :
    resolveIn? names p location = .ok (some id) ↔ (names.under label).get? name = some id := by
  have hfound {label : String} (hs : spelled? names p = some (label, name)) :
      resolveIn? names p location = .ok (some id) ↔ (names.under label).get? name = some id := by
    unfold resolveIn?
    rw [hs]
    dsimp only
    cases (names.under label).get? name with
    | none =>
      dsimp only
      split <;> simp
    | some found => simp
  cases h with
  | own hr hs => exact hfound (by simp [spelled?, hs, hr])
  | aliased hr hs =>
    by_cases hk : names.has p.root
    · exact hfound (by simp [spelled?, hs, hr, hk])
    · have hnone : names.get? p.root = none := by simpa [Fields.has] using hk
      simp [resolveIn?, spelled?, hs, hk, MacroNames.get?_under_of_none hnone]

end MacroRegistry

/-! ### Variables that hold macros -/

namespace Program

variable {own : Fields Nat} {p : Path} {name : String} {m : MacroHandle}

theorem get?_handles (own : Fields Nat) (name : String) :
    (handles own).get? name = (own.get? name).map fun id => .handle ⟨id, name⟩ := by
  show Fields.get? (own.map _) name = _
  induction own with
  | nil => rfl
  | cons entry own ih =>
    obtain ⟨other, id⟩ := entry
    by_cases h : name = other
    · simp [Fields.get?, h]
    · have hne : (name == other) = false := by simpa using h
      simpa [Fields.get?, List.lookup_cons, hne] using ih

theorem follow_handles : p.follow (handles own) [name] = .ok (.handle m) ↔
    m.name = name ∧ own.get? name = some m.id := by
  obtain ⟨id, other⟩ := m
  rw [Path.follow, get?_handles]
  cases own.get? name with
  | none => simp
  | some found => simp [Path.follow, eq_comm, and_comm]

theorem follow_aliased : p.follow (.map [("macros", handles own)]) ["macros", name] =
    p.follow (handles own) [name] := by
  simp [Path.follow, Value.get?, Fields.get?]

/-- Macros under an alias are not macros by the name of that variable alone. -/
theorem follow_aliased_ne :
    p.follow (.map [("macros", handles own)]) [name] ≠ .ok (.handle m) := by
  by_cases h : name = "macros"
  · simp [Path.follow, Value.get?, Fields.get?, h, handles]
  · have hne : (name == "macros") = false := by simpa using h
    simp [Path.follow, Value.get?, Fields.get?, List.lookup_cons, hne]

/-- No macro stands below another one. -/
theorem follow_handles_ne :
    p.follow (handles own) ["macros", name] ≠ .ok (.handle m) := by
  rw [Path.follow, get?_handles]
  cases own.get? "macros" with
  | none => simp
  | some id => simp [Path.follow, Value.get?]

end Program

namespace Template

variable {frame : Frame} {before after : List (String × Value)} {x : String} {v : Value}

theorem get?_bindAll_of_ne {more : List (String × Value)} (h : ∀ entry ∈ more, entry.1 ≠ x) :
    Fields.get? (bindAll frame more) x = Fields.get? frame x := by
  induction more generalizing frame with
  | nil => rfl
  | cons entry more ih =>
    have hne : x ≠ entry.1 := (h entry (by simp)).symm
    have hrest := @ih (Fields.insert entry.1 entry.2 frame) fun e he => h e (by simp [he])
    rw [Fields.get?_insert, if_neg hne] at hrest
    exact hrest

theorem get?_bindAll_append (h : ∀ entry ∈ after, entry.1 ≠ x) :
    Fields.get? (bindAll frame (before ++ (x, v) :: after)) x = some v := by
  unfold bindAll
  rw [List.foldl_append, List.foldl_cons]
  have hafter := @get?_bindAll_of_ne (Fields.insert x v
    (before.foldl (fun frame entry => Fields.insert entry.1 entry.2 frame) frame)) x after h
  rw [Fields.get?_insert, if_pos rfl] at hafter
  exact hafter

variable {program : Program} {own : Fields Nat}

/-- The name that an alias binds is the alias, but `macros` for a template's own macros. -/
theorem macroBinding_ne {entry : String × Fields Nat} (hne : entry.1 ≠ x) (hown : entry.1 = "" → x ≠ "macros") :
    (if entry.1 = "" then ("macros", Program.handles entry.2)
      else (entry.1, Value.map [("macros", Program.handles entry.2)])).1 ≠ x := by
  split
  · next h => exact (hown h).symm
  · exact hne

theorem get?_of_alias (hs : Fields.IsSorted program.namespaces) (hx : x ≠ "")
    (hn : program.namespaces.get? x = some own) :
    Fields.get? (bindAll frame program.macroBindings) x =
      some (.map [("macros", Program.handles own)]) := by
  obtain ⟨before, after, heq, hafter⟩ := hs.split hn
  unfold Program.macroBindings
  rw [heq, List.map_append, List.map_cons, if_neg hx]
  refine get?_bindAll_append fun binding hb => ?_
  obtain ⟨entry, he, rfl⟩ := List.mem_map.1 hb
  have hlt : x < entry.1 := hafter entry he
  refine macroBinding_ne (fun h => ?_) fun h hm => ?_
  · rw [h] at hlt
    exact String.lt_irrefl x hlt
  · rw [h, show x = "macros" from hm] at hlt
    exact absurd hlt (by decide)

theorem get?_of_own (hs : Fields.IsSorted program.namespaces)
    (hm : program.namespaces.get? "macros" = none) (hn : program.namespaces.get? "" = some own) :
    Fields.get? (bindAll frame program.macroBindings) "macros" = some (Program.handles own) := by
  obtain ⟨before, after, heq, hafter⟩ := hs.split hn
  have hmacros : ∀ entry ∈ program.namespaces, entry.1 ≠ "macros" := fun entry he h =>
    absurd (List.lookup_eq_none_iff.1 hm entry he) (by simp [h])
  unfold Program.macroBindings
  rw [heq] at hmacros ⊢
  rw [List.map_append, List.map_cons, if_pos rfl]
  refine get?_bindAll_append fun binding hb => ?_
  obtain ⟨entry, he, rfl⟩ := List.mem_map.1 hb
  refine macroBinding_ne (hmacros entry (by simp [he])) fun h => ?_
  have hlt := hafter entry he
  rw [h] at hlt
  exact absurd hlt (String.lt_irrefl "")

theorem get?_of_none (hn : program.namespaces.get? x = none)
    (hown : x = "macros" → program.namespaces.get? "" = none) :
    Fields.get? (bindAll frame program.macroBindings) x = Fields.get? frame x := by
  have hne {label : String} (h : program.namespaces.get? label = none) :
      ∀ entry ∈ program.namespaces, entry.1 ≠ label := fun entry he heq =>
    absurd (List.lookup_eq_none_iff.1 h entry he) (by simp [heq])
  refine get?_bindAll_of_ne fun binding hb => ?_
  obtain ⟨entry, he, rfl⟩ := List.mem_map.1 hb
  exact macroBinding_ne (hne hn entry he) fun h hm => hne (hown hm) entry he h

/-! ### Values of such paths -/

variable {p : Path} {label name : String} {m : MacroHandle} {σ : Scope}

theorem resolve_of_get? (hv : σ.get? p.root = some v) : p.resolve σ = p.follow v p.segments := by
  rw [Path.resolve, hv]

/-- What the globals hold is no macro. -/
theorem resolve_ne_of_globals (hb : frame.HandlesIn fun _ => False)
    (hσ : σ.get? p.root = Fields.get? frame p.root) : p.resolve σ ≠ .ok (.handle m) := by
  intro hr
  cases hv : Fields.get? frame p.root with
  | none =>
    rw [Path.resolve, hσ, hv] at hr
    cases hr
  | some v =>
    rw [resolve_of_get? (hσ.trans hv)] at hr
    exact Value.handlesIn_handle.1 ((p.follow_gives (hb.get? hv) p.segments).of_ok hr)

theorem resolve_own_iff (hs : Fields.IsSorted program.namespaces) (hb : frame.HandlesIn fun _ => False)
    (hσ : σ.get? p.root = Fields.get? (bindAll frame program.macroBindings) p.root)
    (hr : p.root = "macros") (hseg : p.segments = [name]) :
    p.resolve σ = .ok (.handle m) ↔
      m.name = name ∧ (MacroNames.under program.namespaces "").get? name = some m.id ∧
        program.namespaces.get? "macros" = none := by
  cases hm : program.namespaces.get? "macros" with
  | some own =>
    have hv := hσ.trans (get?_of_alias hs (hr ▸ by decide) (hr ▸ hm))
    have hnot : p.resolve σ ≠ .ok (.handle m) := by
      rw [resolve_of_get? hv, hseg]
      exact Program.follow_aliased_ne
    simp [hnot]
  | none =>
    cases ho : program.namespaces.get? "" with
    | some own =>
      have hv := hσ.trans (hr ▸ get?_of_own hs hm ho)
      rw [resolve_of_get? hv, hseg, Program.follow_handles]
      simp [MacroNames.under_of_get? ho]
    | none =>
      have hglobals := hσ.trans (get?_of_none (hr ▸ hm) fun _ => ho)
      simp [resolve_ne_of_globals hb hglobals, MacroNames.get?_under_of_none ho]

theorem resolve_aliased_iff (hs : Fields.IsSorted program.namespaces) (hb : frame.HandlesIn fun _ => False)
    (hσ : σ.get? p.root = Fields.get? (bindAll frame program.macroBindings) p.root)
    (hr : p.root ≠ "") (hseg : p.segments = ["macros", name]) :
    p.resolve σ = .ok (.handle m) ↔
      m.name = name ∧ (MacroNames.under program.namespaces p.root).get? name = some m.id := by
  cases hn : program.namespaces.get? p.root with
  | some own =>
    have hv := hσ.trans (get?_of_alias hs hr hn)
    rw [resolve_of_get? hv, hseg, Program.follow_aliased, Program.follow_handles, MacroNames.under_of_get? hn]
  | none =>
    have hnot : p.resolve σ ≠ .ok (.handle m) := by
      by_cases hm : p.root = "macros"
      · cases ho : program.namespaces.get? "" with
        | some own =>
          have hv := hσ.trans (hm ▸ get?_of_own hs (hm ▸ hn) ho)
          rw [resolve_of_get? hv, hseg]
          exact Program.follow_handles_ne
        | none => exact resolve_ne_of_globals hb (hσ.trans (get?_of_none hn fun _ => ho))
      · exact resolve_ne_of_globals hb (hσ.trans (get?_of_none hn fun h => absurd h hm))
    simp [hnot, MacroNames.get?_under_of_none hn]

/-- The value of a path that spells a macro is the one that the main template sees by that name, unless an
alias `macros` stands before its own macros. -/
theorem resolve_iff (hs : Fields.IsSorted program.namespaces) (hb : frame.HandlesIn fun _ => False)
    (hσ : σ.get? p.root = Fields.get? (bindAll frame program.macroBindings) p.root)
    (h : p.Spells label name) :
    p.resolve σ = .ok (.handle m) ↔
      m.name = name ∧ (MacroNames.under program.namespaces label).get? name = some m.id ∧
        (label = "" → program.namespaces.get? "macros" = none) := by
  cases h with
  | own hr hseg => simp [resolve_own_iff hs hb hσ hr hseg]
  | aliased hr hseg => simp [resolve_aliased_iff hs hb hσ hr hseg, hr]

end Template

/-! ### Names of units and values -/

namespace MacroRegistry

variable {r : MacroRegistry} {unit id : Nat} {p : Path} {label name : String} {location : Location}

theorem spells_of_resolve? (h : r.resolve? unit (.path p) location = .ok (some id)) :
    ∃ label name, p.Spells label name := by
  unfold resolve? Expression.path? at h
  split at h
  · next heq _ =>
    cases heq
    exact spells_of_resolveIn? h
  · cases h

theorem resolve?_iff (h : p.Spells label name) :
    r.resolve? unit (.path p) location = .ok (some id) ↔
      ((r.names unit).under label).get? name = some id := by
  unfold resolve? Expression.path? MacroRegistry.names
  cases r.units[unit]? with
  | none => simp [MacroNames.under, Fields.get?]
  | some u => exact resolveIn?_iff h

/-- The main template sees the macro by the path, and if it is one of its own, then no alias `macros` has taken
the place of these. -/
def MainSees (r : MacroRegistry) (p : Path) (id : Nat) : Prop :=
  (∀ location, r.resolve? 0 (.path p) location = .ok (some id)) ∧
    ((r.names 0).has "macros" → p.segments.length = 2)

theorem mainSees_iff (h : p.Spells label name) :
    r.MainSees p id ↔ ((r.names 0).under label).get? name = some id ∧
      (label = "" → (r.names 0).get? "macros" = none) := by
  unfold MainSees
  simp only [resolve?_iff h, forall_const]
  refine and_congr_right fun _ => ?_
  cases h with
  | own hr hs => simp [Fields.has, hs]
  | aliased hr hs => simp [hs, hr]

end MacroRegistry

theorem RenderContext.target_of_handle {context : RenderContext} {σ : Scope} {e : LocatedExpression}
    {m : MacroHandle} (h : e.expression.evaluate context.host σ = .ok (.handle m)) :
    context.target σ (.computed e) = .ok m.id := by
  have hvalue : context.value σ e = .ok (.handle m) := by rw [RenderContext.value, h]
  unfold RenderContext.target
  dsimp only
  rw [hvalue]
  rfl

namespace Template

variable {provider : ResourceProvider} {source : TemplateSource} {document : Document} {r : MacroRegistry}
  {program : Program} {requirements : Requirements} {template : Template} {globals frame : Frame}
  {unit id : Nat} {p : Path} {location : Location} {σ : Scope}

theorem resolve_iff_mainSees (hd : Document.parse source.text source.path = .ok document)
    (hr : MacroRegistry.ofMain provider document source.path = .ok r)
    (hc : Program.compile provider .markup source = .ok program)
    (ha : program.accept requirements = .ok template) (hg : ∀ entry ∈ globals, entry.2.handles = [])
    (hf : template.rootFrame globals = .ok frame) {label name : String} (hp : p.Spells label name)
    (hσ : σ.get? p.root = Fields.get? frame p.root) {m : MacroHandle} :
    p.resolve σ = .ok (.handle m) ↔ m.name = name ∧ r.MainSees p m.id := by
  have hnames : program.namespaces = r.names 0 := by
    obtain ⟨found, -, hfound, -, -, -, hnames⟩ := Program.ofDocument_ok (Program.ofDocument_of_compile hd hc)
    rw [hr] at hfound
    cases hfound
    exact hnames
  have hs : Fields.IsSorted program.namespaces := (Program.isSorted_namespaces hc).labels
  have hglobals : Frame.HandlesIn (fun _ => False) globals := fun entry he => .of_eq_nil (hg entry he)
  obtain ⟨before, hb, rfl⟩ := rootFrame_ok hglobals hf
  rw [(Program.accept_ok ha).1] at hσ
  rw [resolve_iff hs hb hσ hp, MacroRegistry.mainSees_iff hp, hnames]

/-- A path that means a macro in some unit has its handle as value if the main template sees the same macro by
that path, and only then. So a computed call of the path then calls the macro of that unit. -/
theorem resolve_iff_of_compile (hd : Document.parse source.text source.path = .ok document)
    (hr : MacroRegistry.ofMain provider document source.path = .ok r)
    (hc : Program.compile provider .markup source = .ok program)
    (ha : program.accept requirements = .ok template) (hg : ∀ entry ∈ globals, entry.2.handles = [])
    (hf : template.rootFrame globals = .ok frame)
    (hu : r.resolve? unit (.path p) location = .ok (some id))
    (hσ : σ.get? p.root = Fields.get? frame p.root) :
    ((∃ name, (Expression.path p).evaluate template.host.evaluate σ = .ok (.handle ⟨id, name⟩)) ↔
      r.MainSees p id) ∧
    (r.MainSees p id → ∀ format e others, e.expression = .alternatives (.path p :: others) →
      (template.context format).target σ (.computed e) = .ok id) := by
  obtain ⟨label, name, hp⟩ := MacroRegistry.spells_of_resolve? hu
  have hiff {m : MacroHandle} := @resolve_iff_mainSees _ _ _ _ _ _ _ _ _ _ _ hd hr hc ha hg hf _ _ hp hσ m
  refine ⟨⟨fun ⟨other, he⟩ => ?_, fun h => ⟨name, ?_⟩⟩, fun h format e others he => ?_⟩
  · rw [Expression.evaluate] at he
    exact (hiff.1 he).2
  · rw [Expression.evaluate]
    exact hiff.2 ⟨rfl, h⟩
  · have hpath : p.resolve σ = .ok (.handle ⟨id, name⟩) := hiff.2 ⟨rfl, h⟩
    refine RenderContext.target_of_handle (m := ⟨id, name⟩) ?_
    rw [he, Expression.evaluate, Expression.evaluateFirst, Expression.evaluate, hpath]

/-- A call of a macro that shows itself, by the name under which its own unit sees it. -/
def selfShown : TemplateSource :=
  ⟨"<metal:p import=\"x:l\" use-macro=\"x/macros/o\"/>", none⟩

/-- The import of `selfShown`. -/
def selfLibrary : ResourceProvider :=
  (MemoryStore.ofTexts [("l", "<b metal:define-macro=\"o\" tal:content=\"macros/o\"/>")]).provider

theorem registry_selfShown : ∃ document r, Document.parse selfShown.text selfShown.path = .ok document ∧
    MacroRegistry.ofMain selfLibrary document selfShown.path = .ok r ∧
    r.names 0 = [("", []), ("x", [("o", 0)])] ∧ r.names 1 = [("", [("o", 0)])] := by
  have h : ((Document.parse selfShown.text selfShown.path).toOption.bind fun document =>
      (MacroRegistry.ofMain selfLibrary document selfShown.path).toOption).any fun r =>
        r.names 0 = [("", []), ("x", [("o", 0)])] ∧ r.names 1 = [("", [("o", 0)])] := by decide +kernel
  cases hd : Document.parse selfShown.text selfShown.path with
  | error fault => rw [hd] at h; cases h
  | ok document =>
    rw [hd] at h
    cases hr : MacroRegistry.ofMain selfLibrary document selfShown.path with
    | error fault => simp [Except.toOption, hr] at h
    | ok r => exact ⟨document, r, rfl, hr, by simpa [Except.toOption, hr] using h⟩

theorem accept_selfShown : ∃ program template frame,
    Program.compile selfLibrary .markup selfShown = .ok program ∧ program.accept ⟨[], []⟩ = .ok template ∧
    template.rootFrame [] = .ok frame := by
  have h : (Program.compile selfLibrary .markup selfShown >>= (Program.accept · ⟨[], []⟩)).toOption.any
      fun template => (template.rootFrame []).toOption.isSome := by decide +kernel
  cases hc : Program.compile selfLibrary .markup selfShown with
  | error fault => rw [hc] at h; cases h
  | ok program =>
    rw [hc] at h
    cases ha : program.accept ⟨[], []⟩ with
    | error fault => simp [Bind.bind, Except.bind, ha, Except.toOption] at h
    | ok template =>
      cases hf : template.rootFrame [] with
      | error fault => simp [Bind.bind, Except.bind, ha, hf, Except.toOption] at h
      | ok frame => exact ⟨program, template, frame, rfl, ha, hf⟩

/-- The main template sees the macro under its alias. -/
theorem resolve_iff_of_compile_selfShown : ∃ document r program template frame,
    Document.parse selfShown.text selfShown.path = .ok document ∧
    MacroRegistry.ofMain selfLibrary document selfShown.path = .ok r ∧
    Program.compile selfLibrary .markup selfShown = .ok program ∧
    program.accept ⟨[], []⟩ = .ok template ∧ template.rootFrame [] = .ok frame ∧
    r.resolve? 0 (.path ⟨"x", ["macros", "o"]⟩) default = .ok (some 0) ∧
    ∃ name, (Expression.path ⟨"x", ["macros", "o"]⟩).evaluate template.host.evaluate (.ofGlobals frame) =
      .ok (.handle ⟨0, name⟩) := by
  obtain ⟨document, r, hd, hr, hmain, -⟩ := registry_selfShown
  obtain ⟨program, template, frame, hc, ha, hf⟩ := accept_selfShown
  have hp : Path.Spells ⟨"x", ["macros", "o"]⟩ "x" "o" := .aliased (by decide) rfl
  have hfound : ((r.names 0).under "x").get? "o" = some 0 := by
    rw [hmain]
    decide
  have hu (location : Location) : r.resolve? 0 (.path ⟨"x", ["macros", "o"]⟩) location = .ok (some 0) :=
    (MacroRegistry.resolve?_iff hp).2 hfound
  have hsees : r.MainSees ⟨"x", ["macros", "o"]⟩ 0 := ⟨hu, fun _ => rfl⟩
  have hg : ∀ entry ∈ ([] : Frame), entry.2.handles = [] := by simp
  have hσ : (Scope.ofGlobals frame).get? "x" = Fields.get? frame "x" := rfl
  refine ⟨document, r, program, template, frame, hd, hr, hc, ha, hf, hu default, ?_⟩
  exact (resolve_iff_of_compile hd hr hc ha hg hf (hu default) hσ).1.2 hsees

/-- Inside the macro, the name under which its own unit sees it means nothing. -/
theorem evaluate_ne_resolve : ¬∀ (provider : ResourceProvider) (source : TemplateSource)
    (document : Document) (r : MacroRegistry) (program : Program) (requirements : Requirements)
    (template : Template) (frame : Frame) (unit id : Nat) (p : Path) (location : Location) (σ : Scope),
    Document.parse source.text source.path = .ok document →
    MacroRegistry.ofMain provider document source.path = .ok r →
    Program.compile provider .markup source = .ok program →
    program.accept requirements = .ok template → template.rootFrame [] = .ok frame →
    r.resolve? unit (.path p) location = .ok (some id) → σ.get? p.root = Fields.get? frame p.root →
    ∃ name, (Expression.path p).evaluate template.host.evaluate σ = .ok (.handle ⟨id, name⟩) := by
  intro h
  obtain ⟨document, r, hd, hr, hmain, hlibrary⟩ := registry_selfShown
  obtain ⟨program, template, frame, hc, ha, hf⟩ := accept_selfShown
  have hp : Path.Spells ⟨"macros", ["o"]⟩ "" "o" := .own rfl rfl
  have hu : r.resolve? 1 (.path ⟨"macros", ["o"]⟩) default = .ok (some 0) := by
    refine (MacroRegistry.resolve?_iff hp).2 ?_
    rw [hlibrary]
    decide
  have hσ : (Scope.ofGlobals frame).get? "macros" = Fields.get? frame "macros" := rfl
  obtain ⟨name, he⟩ := h _ _ _ _ _ _ _ _ _ _ _ _ _ hd hr hc ha hf hu hσ
  rw [Expression.evaluate] at he
  have hg : ∀ entry ∈ ([] : Frame), entry.2.handles = [] := by simp
  have hsees : r.MainSees ⟨"macros", ["o"]⟩ 0 := ((resolve_iff_mainSees hd hr hc ha hg hf hp hσ).1 he).2
  have hfound := ((MacroRegistry.mainSees_iff hp).1 hsees).1
  rw [hmain] at hfound
  exact absurd hfound (by decide)

end Template

end MarkupTemplate
