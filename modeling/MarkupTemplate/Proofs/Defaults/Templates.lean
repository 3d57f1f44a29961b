import MarkupTemplate.Proofs.Defaults.Lockstep
import MarkupTemplate.Proofs.Defaults.Programs
import MarkupTemplate.Proofs.Evaluation.Prepared
import MarkupTemplate.Proofs.Render.Accepted

/-!
# Templates without a directive whose value is `default`

`default` keeps what the template has: a template renders as it does without a directive, if the value of the directive
is `default` wherever it is asked for (`Template.render_without`). This is so for the tree with all that is left in its
place, and with a tag opened up that closes itself and gives content. Not so for the text without the directive
(`Template.render_ne_without`).
-/

namespace MarkupTemplate

/-! ### Acceptance -/

namespace HostRuntime

variable {runtime : HostRuntime} {code : String}

/-- Code that one runtime serves is prepared by any with the same libraries. -/
theorem Serves.prepare (h : runtime.Serves code) {other : HostRuntime} (hl : other.libraries = runtime.libraries) :
    ∃ next, other.prepare code = .ok next ∧ next.libraries = runtime.libraries := by
  obtain ⟨e, -, hparse, hcalled⟩ := h.read
  have hknown : e.called.find? (fun f => (Host.findFunction? other.libraries f).isNone) = none := by
    rw [List.find?_eq_none]
    intro f hf
    rw [hl, Option.isNone_eq_false_iff.2 (hcalled f hf)]
    exact Bool.false_ne_true
  unfold HostRuntime.prepare
  split
  · exact ⟨other, rfl, hl⟩
  · refine ⟨⟨other.libraries, (code, e) :: other.prepared⟩, ?_, hl⟩
    simp only [hparse, hknown, Bind.bind, Except.bind]
    rfl

end HostRuntime

namespace Program

variable {program other : Program} {requirements : Requirements} {template : Template}

/-- With no other host code, another program is accepted as well, and its expressions have the same values. -/
theorem accept_subset (h : program.accept requirements = .ok template)
    (hother : ∀ e ∈ other.expressions, ∀ code ∈ e.expression.hostCode,
      ∃ e ∈ program.expressions, code ∈ e.expression.hostCode) :
    ∃ template', other.accept requirements = .ok template' ∧ template'.program = other ∧
      template'.globals = template.globals ∧ template'.host.evaluate = template.host.evaluate := by
  obtain ⟨-, hchecked, hprepared⟩ := accept_ok h
  obtain ⟨hlibraries, hglobals⟩ := libraries_of_accept h
  have hserves : ∀ piece ∈ other.hostCode, template.host.Serves piece.1 := fun piece hpiece => by
    obtain ⟨e, he, hcode⟩ := List.mem_flatMap.1 hpiece
    obtain ⟨code, hin, rfl⟩ := List.mem_map.1 hcode
    obtain ⟨e', he', hcode'⟩ := hother e he code hin
    exact hchecked.serves (hprepared e' he' code hcode')
  have hprepare : Gives (fun host => HostRuntime.libraries host = template.host.libraries) (fun _ => False)
      (other.hostCode.foldlM prepareCode (HostRuntime.ofLibraries template.host.libraries)) :=
    Gives.foldlM (fun piece hpiece host hhost => by
      obtain ⟨next, hnext, hl⟩ := (hserves piece hpiece).prepare hhost
      rw [prepareCode, hnext]
      exact .ok hl) rfl
  generalize hfold : other.hostCode.foldlM prepareCode (HostRuntime.ofLibraries template.host.libraries) = x
    at hprepare
  cases hprepare with
  | error h => exact h.elim
  | @ok host hhost =>
    have haccept : other.accept requirements = .ok ⟨other, template.globals, host⟩ := by
      unfold accept
      dsimp only
      rw [hlibraries, hglobals]
      show other.hostCode.foldlM prepareCode _ >>= _ = _
      rw [hfold]
      rfl
    refine ⟨_, haccept, rfl, rfl, ?_⟩
    obtain ⟨-, hchecked', -⟩ := accept_ok haccept
    funext code σ
    have hl : (⟨other, template.globals, host⟩ : Template).host.libraries = template.host.libraries := hhost
    rw [hchecked'.evaluate_eq, hchecked.evaluate_eq, hl]

/-- No expression is new in a program that is lighter, but for `default`. -/
theorem Lightens.mem_expressions {r : Removal} (h : program.Lightens r other) {e : LocatedExpression}
    (he : e ∈ other.expressions) : e ∈ program.expressions ∨ e.expression = .default := by
  have hblock {block block' : Block} (hb : r.Lightens block block')
      (he : e ∈ Operation.expressionsAll block') : e ∈ Operation.expressionsAll block ∨ e.expression = .default := by
    obtain ⟨recast, hr, hs⟩ := hb
    exact hr.mem_expressions (hs.mem_expressions he)
  obtain he | he := List.mem_append.1 he
  · exact (hblock h.body he).imp_left (List.mem_append_left _)
  · obtain ⟨m', hm', he⟩ := List.mem_flatMap.1 he
    obtain ⟨m, hm, hmatch⟩ : ∃ m ∈ program.macros, m.Matches r.Lightens m' := by
      obtain ⟨i, hi⟩ := List.mem_iff_getElem?.1 hm'
      have hrel := rel_getElem? h.macros i
      rw [hi] at hrel
      generalize hget : program.macros[i]? = found at hrel
      cases hrel with
      | some hmatch => exact ⟨_, List.mem_of_getElem? hget, hmatch⟩
    have hin : e ∈ m.expressions ∨ e.expression = .default := by
      obtain he | he := List.mem_append.1 he
      · rw [hmatch.parameters] at he
        exact .inl (List.mem_append_left _ he)
      · exact (hblock hmatch.body he).imp_left (List.mem_append_right _)
    exact hin.imp_left fun he => List.mem_append_right _ (List.mem_flatMap.2 ⟨m, hm, he⟩)

end Program

/-! ### Rendering -/

namespace Removal

variable {r : Removal}

/-- Macros that are lighter are so in two steps. -/
theorem macros_between {macros macros' : List Macro} (h : List.Forall₂ (Macro.Matches r.Lightens) macros macros') :
    ∃ between, List.Forall₂ (Macro.Matches r.RecastsAll) macros between ∧
      List.Forall₂ (Macro.Matches Block.Simplifies) between macros' := by
  induction h with
  | nil => exact ⟨[], .nil, .nil⟩
  | @cons m m' _ _ hm _ ih =>
    obtain ⟨between, hrecast, hsimple⟩ := ih
    obtain ⟨body, hr, hs⟩ := hm.body
    exact ⟨{ m with body } :: between, .cons ⟨rfl, rfl, hr⟩ hrecast, .cons ⟨hm.name, hm.parameters, hs⟩ hsimple⟩

end Removal

namespace Template

variable {template template' : Template} {r : Removal}

/-- The directive's value is `default` wherever rendering with these global variables asks for it. -/
def GivesDefault (template : Template) (r : Removal) (format : ValueFormatter) (globals : Frame) : Prop :=
  ∀ frame, template.rootFrame globals = .ok frame →
    r.IsDefault (template.context format) depthBound template.program.body (.initial (.ofGlobals frame))

theorem rootFrame_eq (hn : template'.program.namespaces = template.program.namespaces)
    (hg : template'.globals = template.globals) : template'.rootFrame = template.rootFrame := by
  funext globals
  rw [rootFrame, rootFrame, Program.macroBindings, Program.macroBindings, hn, hg]

/-- With `default` in the place of expressions of the directive, the template renders as before. -/
theorem render_recast {body : Block} {macros : List Macro} (hb : r.RecastsAll template.program.body body)
    (hm : List.Forall₂ (Macro.Matches r.RecastsAll) template.program.macros macros) {format : ValueFormatter}
    {globals : Frame} (hd : template.GivesDefault r format globals) :
    Template.render { template with program := ⟨body, macros, template.program.namespaces⟩ } format globals =
      template.render format globals := by
  have hroot : ({ template with program := ⟨body, macros, template.program.namespaces⟩ } : Template).rootFrame =
    template.rootFrame := rootFrame_eq rfl rfl
  unfold render renderWithin
  rw [hroot]
  cases hframe : template.rootFrame globals with
  | error fault => rfl
  | ok frame =>
    have hends := Removal.block_along hm depthBound hb _ _ (hd frame hframe) (.refl _)
    dsimp only
    have hcontext : ({ template with program := ⟨body, macros, template.program.namespaces⟩ } : Template).context
      format = { template.context format with macros } := rfl
    rw [hcontext]
    generalize (RenderContext.runBlock _ depthBound template.program.body).run _ = o at hends ⊢
    generalize (RenderContext.runBlock _ depthBound body).run _ = o' at hends ⊢
    cases hends with
    | done h => simp only [RenderState.text, h.written]
    | failed fault h => rfl
    | exhausted => rfl

/-- With blocks that are simplified, the template renders as before. -/
theorem render_simplified (template template' : Template)
    (hb : Block.Simplifies template.program.body template'.program.body)
    (hm : List.Forall₂ (Macro.Matches Block.Simplifies) template.program.macros template'.program.macros)
    (hn : template'.program.namespaces = template.program.namespaces)
    (hg : template'.globals = template.globals) (hh : template'.host.evaluate = template.host.evaluate)
    (format : ValueFormatter) (globals : Frame) :
    template'.render format globals = template.render format globals := by
  have hcontext : template'.context format =
    { template.context format with macros := template'.program.macros } := by
    rw [context, hh]
    rfl
  have hm : List.Forall₂ (Macro.Matches Block.Simplifies) (template.context format).macros
    template'.program.macros := hm
  unfold render
  rw [renderWithin_eq_closures, renderWithin_eq_closures, closuresWithin, closuresWithin, rootFrame_eq hn hg,
    hcontext]
  cases template.rootFrame globals with
  | error fault => rfl
  | ok frame =>
    dsimp only
    rw [Meaning.block_simplified hm depthBound .main hb]

/-- A template renders as it does without a directive, if the value of the directive is `default` wherever rendering
asks for it: without the condition, the repetition, the content or the replacement that stands at a place, or without
the entries for an attribute in what stands there. The tree without the directive is compiled and accepted, too, and
the two templates give the same text or fail with the same fault. -/
theorem render_without {provider : ResourceProvider} {source : TemplateSource} {document : Document}
    {requirements : Requirements} (hp : Document.parse source.text source.path = .ok document)
    (hc : Program.compile provider .markup source = .ok template.program)
    (ha : template.program.accept requirements = .ok template) (r : Removal) :
    ∃ template' : Template, Program.ofDocument provider (document.without r) source.path = .ok template'.program ∧
      template'.program.accept requirements = .ok template' ∧
      ∀ format globals, template.GivesDefault r format globals →
        template'.render format globals = template.render format globals := by
  obtain ⟨other, hother, hlighter⟩ :=
    Program.ofDocument_without provider document r source.path _ (Program.ofDocument_of_compile hp hc)
  have hcode : ∀ e ∈ other.expressions, ∀ code ∈ e.expression.hostCode,
      ∃ e ∈ template.program.expressions, code ∈ e.expression.hostCode := fun e he code hcode => by
    obtain he | he := hlighter.mem_expressions he
    · exact ⟨e, he, hcode⟩
    · rw [he] at hcode
      cases hcode
  obtain ⟨template', haccept, rfl, hglobals, hhost⟩ := Program.accept_subset ha hcode
  obtain ⟨body, hbody, hsimple⟩ := hlighter.body
  obtain ⟨macros, hmacros, hsimpler⟩ := Removal.macros_between hlighter.macros
  refine ⟨template', hother, haccept, fun format globals hd => ?_⟩
  rw [render_simplified { template with program := ⟨body, macros, template.program.namespaces⟩ } template' hsimple
    hsimpler hlighter.namespaces hglobals hhost, render_recast hbody hmacros hd]

/-- Content that is `default` where its variable is not bound. -/
def contentOrDefault : TemplateSource :=
  ⟨"<p tal:content=\"x | default\">y</p>", none⟩

/-- The content is taken out. -/
def contentTaken : Removal := .content ⟨⟨1, 4, 3⟩, none⟩

/-- The expression of the content that is all that is computed. -/
def onlyContent? : Block → Option LocatedExpression
  | [.literal _, .emit e _ [.literal _], .literal _] => some e
  | _ => none

theorem isDefault_of_onlyContent? {r : Removal} {context : RenderContext} {n : Nat} {block : Block}
    {s : RenderState} {e : LocatedExpression} (hb : onlyContent? block = some e) (hv : context.value s.scope e = .ok .default) :
    r.IsDefault context n block s := by
  unfold onlyContent? at hb
  split at hb
  · cases hb
    intro k op u e' he hreads
    have htext {n k : Nat} {text : String} {op : Operation} {s u : RenderState}
        (he : context.Executes n [.literal text] s k op u) : op = .literal text := by
      cases he with
      | here => rfl
      | later _ he => cases he
      | inside hs _ => cases hs
    cases he with
    | here => cases hreads
    | inside hs _ => cases hs
    | later hrun he =>
      cases hrun
      cases he with
      | here => cases hreads <;> exact hv
      | later _ he =>
        cases htext he
        cases hreads
      | inside hs he =>
        cases hs
        cases htext he
        cases hreads
  · cases hb

theorem render_without_contentOrDefault : ∃ (document : Document) (template template' : Template),
    Document.parse contentOrDefault.text contentOrDefault.path = .ok document ∧
    Program.compile (MemoryStore.provider []) .markup contentOrDefault = .ok template.program ∧
    template.program.accept ⟨[], []⟩ = .ok template ∧
    Program.ofDocument (MemoryStore.provider []) (document.without contentTaken) none = .ok template'.program ∧
    template'.program.accept ⟨[], []⟩ = .ok template' ∧ template.GivesDefault contentTaken Value.text [] ∧
    template'.render Value.text [] = template.render Value.text [] := by
  have hd : (Program.compile (MemoryStore.provider []) .markup contentOrDefault >>=
      (Program.accept · ⟨[], []⟩)).toOption.any fun template =>
        (onlyContent? template.program.body).any fun e => (template.rootFrame []).toOption.any fun frame =>
          ((template.context Value.text).value (.ofGlobals frame) e).toOption.any Value.isDefault := by
    decide +kernel
  obtain ⟨template, htemplate, hd⟩ := (Option.any_eq_true ..).1 hd
  obtain ⟨e, he, hd⟩ := (Option.any_eq_true ..).1 hd
  obtain ⟨frame, hframe, hd⟩ := (Option.any_eq_true ..).1 hd
  obtain ⟨v, hv, hd⟩ := (Option.any_eq_true ..).1 hd
  obtain ⟨program, hc, ha⟩ := bind_eq_ok.1 (eq_ok_of_toOption htemplate)
  obtain ⟨rfl, -⟩ := Program.accept_ok ha
  have hvalue : v = .default := by
    unfold Value.isDefault at hd
    split at hd
    · rfl
    · cases hd
  subst hvalue
  have hgives : template.GivesDefault contentTaken Value.text [] := fun frame' hframe' => by
    rw [eq_ok_of_toOption hframe] at hframe'
    cases hframe'
    exact isDefault_of_onlyContent? he (eq_ok_of_toOption hv)
  cases hp : Document.parse contentOrDefault.text contentOrDefault.path with
  | error fault =>
    unfold Program.compile at hc
    rw [hp] at hc
    cases hc
  | ok document =>
    obtain ⟨template', ho, ha', hsame⟩ := render_without hp hc ha contentTaken
    exact ⟨document, template, template', rfl, hc, ha, ho, ha', hgives, hsame Value.text [] hgives⟩

/-- Where the expressions at a place are `default` themselves, they give nothing else. -/
theorem givesDefault_of_static {provider : ResourceProvider} {mode : TemplateMode} {source : TemplateSource}
    {requirements : Requirements} (hc : Program.compile provider mode source = .ok template.program)
    (ha : template.program.accept requirements = .ok template)
    (hs : ∀ e ∈ template.program.expressions, e.location = r.place → e.expression = .default)
    (format : ValueFormatter) {globals : Frame} (hg : ∀ entry ∈ globals, entry.2.handles = []) :
    template.GivesDefault r format globals := fun frame hframe k op u e he hreads => by
  have hr := runs_of_accept hc ha format
  have hbody : template.program.body ∈ template.program.blocks := by simp [Program.blocks]
  obtain ⟨hop, -⟩ := hr.executes_sound he (fun o ho => ⟨_, hbody, ho⟩)
    (initial_isSound hr.wellFormed hg hframe)
  obtain ⟨hin, hplace⟩ : e ∈ op.expressions ∧ e.location = r.place := by
    cases hreads with
    | entry _ hcomputed _ =>
      refine ⟨List.mem_append_left _ (List.mem_append_left _ ?_), rfl⟩
      rw [hcomputed, List.map_append, List.map_cons]
      exact List.mem_append_right _ List.mem_cons_self
    | _ => exact ⟨List.mem_cons_self, rfl⟩
  exact Meaning.value_default (hs e (hop.mem_expressions hin) hplace) u.scope

/-- Content that is `default`, in a tag that closes itself. -/
def closedContent : TemplateSource :=
  ⟨"<p tal:content=\"default\"/>", none⟩

/-- The same without the content. -/
def closedTag : TemplateSource :=
  ⟨"<p/>", none⟩

/-- Content that is `default`, in front of a failure that writes where it is. -/
def placedContent : TemplateSource :=
  ⟨"<i tal:on-error=\"error/column\"><b tal:content=\"default\"><u tal:content=\"x\"/></b></i>", none⟩

/-- The same without the content. -/
def placedTag : TemplateSource :=
  ⟨"<i tal:on-error=\"error/column\"><b><u tal:content=\"x\"/></b></i>", none⟩

/-- The text of a source without anything given, if the expressions at a place are `default`. -/
def textIfStatic? (source : TemplateSource) (place : Location) : Option String :=
  match Program.compile (MemoryStore.provider []) .markup source >>= (Program.accept · ⟨[], []⟩) with
  | .ok template =>
    if template.program.expressions.all fun e => e.location != place || e.expression matches .default then
      (template.render Value.text []).toOption
    else none
  | .error _ => none

theorem exists_of_textIfStatic? {source : TemplateSource} {place : Location} {text : String}
    (h : textIfStatic? source place = some text) : ∃ template : Template,
      Program.compile (MemoryStore.provider []) .markup source = .ok template.program ∧
      template.program.accept ⟨[], []⟩ = .ok template ∧ template.GivesDefault (.content place) Value.text [] ∧
      template.render Value.text [] = .ok text := by
  unfold textIfStatic? at h
  split at h
  · next template htemplate =>
    obtain ⟨program, hc, ha⟩ := bind_eq_ok.1 htemplate
    obtain ⟨rfl, -⟩ := Program.accept_ok ha
    split at h
    · next hstatic =>
      refine ⟨template, hc, ha, ?_, eq_ok_of_toOption h⟩
      refine givesDefault_of_static hc ha (fun e he hplace => ?_) Value.text (List.forall_mem_nil _)
      have he := List.all_eq_true.1 hstatic e he
      simp only [hplace, Removal.place, bne_self_eq_false, Bool.false_or] at he
      split at he
      · assumption
      · cases he
    · cases h
  · cases h

/-- The text without the directive need not render like the text with it. A tag that closes itself has been opened up
for the content, and what stands behind the directive moves, which shows in the place of a failure. -/
theorem render_ne_without :
    (∃ template template' : Template,
      Program.compile (MemoryStore.provider []) .markup closedContent = .ok template.program ∧
      template.program.accept ⟨[], []⟩ = .ok template ∧
      Program.compile (MemoryStore.provider []) .markup closedTag = .ok template'.program ∧
      template'.program.accept ⟨[], []⟩ = .ok template' ∧
      template.GivesDefault (.content ⟨⟨1, 4, 3⟩, none⟩) Value.text [] ∧
      template.render Value.text [] = .ok "<p></p>" ∧ template'.render Value.text [] = .ok "<p/>") ∧
    ∃ template template' : Template,
      Program.compile (MemoryStore.provider []) .markup placedContent = .ok template.program ∧
      template.program.accept ⟨[], []⟩ = .ok template ∧
      Program.compile (MemoryStore.provider []) .markup placedTag = .ok template'.program ∧
      template'.program.accept ⟨[], []⟩ = .ok template' ∧
      template.GivesDefault (.content ⟨⟨1, 35, 34⟩, none⟩) Value.text [] ∧
      template.render Value.text [] = .ok "60" ∧ template'.render Value.text [] = .ok "38" := by
  have hclosed : textIfStatic? closedContent ⟨⟨1, 4, 3⟩, none⟩ = some "<p></p>" := by decide +kernel
  have hclosedTag : textIfStatic? closedTag ⟨⟨1, 4, 3⟩, none⟩ = some "<p/>" := by decide +kernel
  have hplaced : textIfStatic? placedContent ⟨⟨1, 35, 34⟩, none⟩ = some "60" := by decide +kernel
  have hplacedTag : textIfStatic? placedTag ⟨⟨1, 35, 34⟩, none⟩ = some "38" := by decide +kernel
  obtain ⟨template, hc, ha, hd, ht⟩ := exists_of_textIfStatic? hclosed
  obtain ⟨template', hc', ha', -, ht'⟩ := exists_of_textIfStatic? hclosedTag
  refine ⟨⟨template, template', hc, ha, hc', ha', hd, ht, ht'⟩, ?_⟩
  obtain ⟨template, hc, ha, hd, ht⟩ := exists_of_textIfStatic? hplaced
  obtain ⟨template', hc', ha', -, ht'⟩ := exists_of_textIfStatic? hplacedTag
  exact ⟨template, template', hc, ha, hc', ha', hd, ht, ht'⟩

end Template

end MarkupTemplate
