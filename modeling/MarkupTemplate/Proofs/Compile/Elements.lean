import MarkupTemplate.Compile.Basic
import MarkupTemplate.Proofs.Compile.Blocks
import MarkupTemplate.Proofs.Compile.Directives
import MarkupTemplate.Proofs.Render.Closures
import MarkupTemplate.Proofs.Render.Realizes

/-!
# Programs of trees

The block of a node without directives of METAL realizes the meaning of the node: its tags and content,
as texts or as operations, and what each directive wraps around them (`node_realizes`). The same holds of
templates (`Template.render_eq_evaluateTree`).
-/

namespace MarkupTemplate

/-! ### Elements -/

/-- What is repeated of an element: its replacement, or else its tags around its content. -/
def Meaning.core (context : RenderContext) (start : StartTag) (closing : Option EndTag)
    (children : Meaning) : Meaning :=
  around start.tal.replacement? (fun (asMarkup, e) => valueOr context e asMarkup) <|
  tagged context start closing <|
  around start.tal.content? (fun (asMarkup, e) => valueOr context e asMarkup) children

section

variable {context : RenderContext} {enter : Environment → Block → Meaning} {env : Environment}

namespace Realizes

theorem around {α : Type} {block : Block} {m : Meaning} (said? : Option α) (wrap : α → Block → Block)
    (wrap' : α → Meaning → Meaning)
    (hw : ∀ a block m, Realizes (Meaning.operations context enter env block) m →
      Realizes (Meaning.operations context enter env (wrap a block)) (wrap' a m))
    (h : Realizes (Meaning.operations context enter env block) m) :
    Realizes (Meaning.operations context enter env (said?.elim block (wrap · block)))
      (Meaning.around said? wrap' m) := by
  cases said? with
  | none => exact h
  | some a => exact hw a _ _ h

theorem definitions : ∀ ds : List Directive.Definition,
    Realizes (Meaning.operations context enter env (ds.map fun d => .define d.kind d.name d.value))
      (Meaning.definitions context ds)
  | [] => .text _
  | d :: ds => (define context d.kind d.name d.value).append (definitions ds)

theorem inScope (ds : List Directive.Definition) {block : Block} {m : Meaning}
    (h : Realizes (Meaning.operations context enter env block) m) :
    Realizes (Meaning.operations context enter env (DirectiveSet.inScope ds block))
      (Meaning.framed (Meaning.definitions context ds ++ m)) := by
  have hb : Meaning.operations context enter env (DirectiveSet.inScope ds block) =
      Meaning.inFrame (Meaning.operations context enter env
        (ds.map fun d => .define d.kind d.name d.value) ++ Meaning.operations context enter env block) := by
    rw [DirectiveSet.inScope, Meaning.operations_append, Meaning.operations_append,
      Meaning.operations_cons, Meaning.operations_singleton, Meaning.append_assoc (Meaning.operation ..)]
    rfl
  rw [hb]
  exact ((definitions ds).append h).framed

/-- The tags of a plan are those of the element, if they are read off it. -/
theorem tagged {start : StartTag} {closing : Option EndTag} {tag : TagPlan} {m n : Meaning}
    (ho : tag.omission = start.tal.omission) (hc : tag.computed = start.tal.computed)
    (hs : ∀ values, tag.startTag context.format values = start.written context.format values)
    (he : tag.closing.getD "" = start.ending closing) (h : Realizes m n) :
    Realizes (Meaning.element context tag m) (Meaning.tagged context start closing n) := by
  rw [Meaning.element, Meaning.tagged, ho]
  refine .read fun σ omitted _ => ?_
  cases omitted with
  | true => exact h σ
  | false =>
    have hm : Realizes
        (Run.read (context.startTag · tag) >>= fun start =>
          Meaning.text start ++ m ++ Meaning.text (tag.closing.getD ""))
        (Run.read (context.computedValues · [] start.tal.computed) >>= fun values =>
          Meaning.text (start.written context.format values) ++ n ++
            Meaning.text (start.ending closing)) := by
      simp only [RenderContext.startTag, Meaning.read_map, hc]
      refine .read fun σ values _ => ?_
      rw [hs, he]
      exact ((text _).append h).append (text _) σ
    exact hm σ

variable {start : StartTag} {closing : Option EndTag} {set : DirectiveSet} {children out : Block}
  {m : Meaning}

theorem said?_ofTag (h : DirectiveSet.ofTag start = .ok set) {α : Type} (kind : TalKind)
    (parse : String → Location → Except CompileProblem α) :
    start.said? kind parse = set.said? kind parse := by
  rw [StartTag.said?, h]
  rfl

/-- The tags of the plan for an element that is not kept as it stands. -/
theorem plan {tag : TagPlan} {n n' : Meaning} (h : DirectiveSet.ofTag start = .ok set)
    (hp : start.isPlain set = false) (ht : start.plan closing set = .ok tag)
    (hs : (start.tal.content?.or start.tal.replacement?).isSome = set.content?.isSome)
    (hn : Realizes n n') :
    Realizes (Meaning.element context tag n) (Meaning.tagged context start closing n') := by
  obtain ⟨hname, hattributes, hcomputed, homission, hclose, hclosing⟩ := StartTag.plan_ok ht
  rw [← hs] at hclose hclosing
  rw [DirectiveSet.isPlain_iff h] at hp
  refine hn.tagged ?_ ?_ (fun values => ?_) ?_
  · simp only [homission, StartTag.tal, said?_ofTag h]
  · simp only [hcomputed, StartTag.tal, said?_ofTag h]
  · rw [TagPlan.startTag, StartTag.written, hp, if_neg (by simp), hname, hattributes, hclose]
    rfl
  · rw [hclosing, StartTag.ending, StartTag.opens]
    split <;> rfl

theorem tagged_of_isKept (h : DirectiveSet.ofTag start = .ok set) (hk : start.isKept) (n : Meaning) :
    Meaning.tagged context start closing n =
      Meaning.text start.text ++ n ++ Meaning.text ((closing.map EndTag.text).getD "") := by
  have hset := DirectiveSet.eq_empty_of_isKept h hk
  have hsaid {α : Type} (kind : TalKind) (parse : String → Location → Except CompileProblem α) :
      start.said? kind parse = none := by
    rw [said?_ofTag h, hset]
    rfl
  have hd : start.isDirective = false := by
    simp only [StartTag.isKept, Bool.and_eq_true, Bool.not_eq_true'] at hk
    exact hk.2
  have htal : start.tal = ⟨none, none, none, none, none, none, [], .never⟩ := by
    simp only [StartTag.tal, hsaid, hd]
    rfl
  have hopens : start.opens = false := by
    rw [StartTag.opens, htal]
    exact Bool.and_false _
  rw [Meaning.tagged, htal,
    Meaning.read_const (f := fun σ => context.omits σ .never) (a := false) fun _ => rfl, if_neg (by simp),
    Meaning.read_const (f := fun σ => context.computedValues σ [] []) (a := []) fun _ => rfl,
    StartTag.written, if_pos hk, StartTag.ending, hopens, if_neg (by simp)]

/-- The element has content of its own if a directive gives it. -/
theorem isSome_said {content? replacement? : Option (Bool × LocatedExpression)}
    (h : DirectiveSet.ofTag start = .ok set)
    (hr : set.said? .replace Directive.content = replacement?)
    (hc : set.said? .content Directive.content = content?)
    (hs : (content?.or replacement?).isSome = set.content?.isSome) :
    (start.tal.content?.or start.tal.replacement?).isSome = set.content?.isSome := by
  rw [← hs, ← hr, ← hc, ← said?_ofTag h, ← said?_ofTag h]
  rfl

theorem core (h : DirectiveSet.ofTag start = .ok set) (hc : start.core closing set children = .ok out)
    (hm : Realizes (Meaning.operations context enter env children) m) :
    Realizes (Meaning.operations context enter env out) (Meaning.core context start closing m) := by
  unfold Meaning.core
  have hr : start.tal.replacement? = set.said? .replace Directive.content := said?_ofTag h ..
  have ht : start.tal.content? = set.said? .content Directive.content := said?_ofTag h ..
  rcases StartTag.core_ok hc with
    ⟨hp, rfl⟩ | ⟨hp, tag, hplan, ⟨hnone, rfl⟩ | ⟨d, asMarkup, e, hd, hv, hout⟩⟩
  · rw [DirectiveSet.isPlain_iff h] at hp
    have hset := DirectiveSet.eq_empty_of_isKept h hp
    rw [hr, ht, hset]
    show Realizes _ (Meaning.tagged context start closing m)
    rw [tagged_of_isKept h hp, Meaning.operations_ofOperations, List.cons_append, Meaning.operations_cons,
      Meaning.operations_append, ← Meaning.append_assoc]
    refine ((text _).append hm).append ?_
    cases closing with
    | none => exact text _
    | some e => rw [Option.map_some, Option.toList_some, Meaning.operations_singleton]; exact text _
  · obtain ⟨hr', ht'⟩ := DirectiveSet.said?_of_content?_none hnone
    have hs := isSome_said h hr' ht' (by rw [hnone]; rfl)
    rw [hr, ht, hr', ht', Meaning.operations_wrap]
    exact plan h hp hplan hs hm
  · rcases DirectiveSet.said?_of_content? h hd hv with ⟨hk, hr', ht'⟩ | ⟨hk, hr', ht'⟩
    · have hs := isSome_said h hr' ht' (by rw [hd]; rfl)
      rw [hout, if_pos hk, hr, ht, hr', ht', Meaning.operations_singleton, Meaning.operation,
        Meaning.operations_wrap]
      exact valueOr context e asMarkup (plan h hp hplan hs hm)
    · have hs := isSome_said h hr' ht' (by rw [hd]; rfl)
      rw [hout, if_neg hk, hr, ht, hr', ht', Meaning.operations_wrap, Meaning.operations_singleton,
        Meaning.operation]
      exact plan h hp hplan hs (valueOr context e asMarkup hm)

theorem wrapped (h : DirectiveSet.ofTag start = .ok set)
    (hm : Realizes (Meaning.operations context enter env out) (Meaning.core context start closing m)) :
    Realizes (Meaning.operations context enter env (set.wrapped out))
      (Meaning.ofElement context start closing m) := by
  have hloop := around (set.said? .loop Directive.loop) (fun said block => [.repeat said.1 said.2 block])
    (fun said => Meaning.loop context Meaning.framed said.1 said.2) (fun said block m hm => by
      rw [Meaning.operations_singleton]
      exact loop context said.1 said.2 hm) hm
  have hcondition := around
    (set.said? .condition fun argument => Directive.expression argument.toList)
    (fun test block => [.condition test block]) (Meaning.condition context) (fun test block m hm => by
      rw [Meaning.operations_singleton]
      exact condition context test hm) hloop
  have hdefine := around (set.said? .define Directive.definitions) DirectiveSet.inScope
    (fun ds m => Meaning.framed (Meaning.definitions context ds ++ m))
    (fun ds block m hm => inScope ds hm) hcondition
  have hhandler := around (set.said? .onError Directive.handler)
    (fun said block => [.onError block said.2 said.1])
    (fun said => Meaning.guard context (fun _ behind => behind) said.2 said.1) (fun said block m hm => by
      rw [Meaning.operations_singleton]
      exact guard context said.2 said.1 hm) hdefine
  simp only [DirectiveSet.wrapped, Meaning.ofElement, Meaning.core, StartTag.tal, said?_ofTag h] at hhandler ⊢
  exact hhandler

end Realizes

/-- Without directives of METAL an element is its tags and content with all that its directives say around
them. -/
theorem BuildContext.element_ok_of_isMacroFree {build : BuildContext} {start : StartTag}
    {closing : Option EndTag} {children : Unit → Except TemplateFault Block}
    {fills : Fills → Except TemplateFault Fills} {out : Block} (hm : start.IsMacroFree)
    (h : build.element start closing children fills = .ok out) :
    ∃ set block core, DirectiveSet.ofTag start = .ok set ∧ children () = .ok block ∧
      start.core closing set block = .ok core ∧ out = set.wrapped core := by
  obtain ⟨set, hset, h⟩ := build.element_ok h
  have hnone : ∀ kind, set.metal? kind = none := fun kind => by
    rw [DirectiveSet.metal?, DirectiveSet.metal_of_isMacroFree hset hm]
    rfl
  simp only [hnone] at h
  obtain ⟨hd, -⟩ | ⟨core, ⟨block, hblock, hcore⟩, hout⟩ := h
  · cases hd
  · exact ⟨set, block, core, hset, hblock, hcore, hout⟩

mutual

theorem node_realizes {build : BuildContext} : ∀ (n : Node) {ops : Block},
    (∀ start ∈ n.starts, start.IsMacroFree) → build.node n = .ok ops →
    Realizes (Meaning.operations context enter env ops) (Meaning.ofNode context n)
  | .markup _ s _, ops, _, h => by
    cases h
    rw [Meaning.operations_singleton]
    exact .text s
  | .element start children closing, ops, hm, h => by
    rw [BuildContext.node] at h
    obtain ⟨set, block, core, hset, hblock, hcore, rfl⟩ :=
      build.element_ok_of_isMacroFree (hm start (by simp [Node.starts])) h
    obtain ⟨inner, hinner, rfl⟩ := map_eq_ok.1 hblock
    have hc := nodes_realize children (fun s hs => hm s (by simp [Node.starts, hs])) hinner
    rw [← Meaning.operations_ofOperations] at hc
    exact .wrapped hset (.core hset hcore hc)

theorem nodes_realize {build : BuildContext} : ∀ (ns : List Node) {ops : List Operation},
    (∀ start ∈ Node.startsOf ns, start.IsMacroFree) → build.operations ns = .ok ops →
    Realizes (Meaning.operations context enter env ops) (Meaning.ofNodes context ns)
  | [], ops, _, h => by
    cases h
    exact .text _
  | n :: ns, ops, hm, h => by
    obtain ⟨first, hf, h⟩ := bind_eq_ok.1 h
    obtain ⟨others, ho, h⟩ := bind_eq_ok.1 h
    cases h
    rw [Meaning.operations_append]
    exact (node_realizes n (fun s hs => hm s (by simp [Node.startsOf, hs])) hf).append
      (nodes_realize ns (fun s hs => hm s (by simp [Node.startsOf, hs])) ho)

end

end

/-! ### Templates -/

theorem Program.compile_body {provider : ResourceProvider} {source : TemplateSource} {document : Document}
    {program : Program} (hp : Document.parse source.text source.path = .ok document)
    (hc : Program.compile provider .markup source = .ok program) :
    ∃ build : BuildContext, build.nodes document.nodes = .ok program.body := by
  obtain ⟨r, parameters, -, -, -, hb, -⟩ := ofDocument_ok (ofDocument_of_compile hp hc)
  exact ⟨_, hb⟩

namespace Template

variable {template : Template} {provider : ResourceProvider} {source : TemplateSource}
  {document : Document}

theorem block_realizes (hp : Document.parse source.text source.path = .ok document)
    (hm : document.IsMacroFree)
    (hc : Program.compile provider .markup source = .ok template.program) (context : RenderContext)
    (bound : Nat) :
    Realizes (Meaning.block context bound .main template.program.body)
      (Meaning.ofNodes context document.nodes) := by
  obtain ⟨build, hb⟩ := Program.compile_body hp hc
  obtain ⟨ops, ho, hb⟩ := map_eq_ok.1 hb
  rw [← hb]
  cases bound with
  | zero =>
    rw [Meaning.block, Meaning.operations_ofOperations]
    exact nodes_realize _ hm ho
  | succ bound =>
    rw [Meaning.block, Meaning.operations_ofOperations]
    exact nodes_realize _ hm ho

/-- The compiler is correct: what a program writes, or fails with, is what its tree means. No bound is too
small for it, as nothing is called. -/
theorem render_eq_evaluateTree (hp : Document.parse source.text source.path = .ok document)
    (hm : document.IsMacroFree)
    (hc : Program.compile provider .markup source = .ok template.program) (format : ValueFormatter)
    (globals : Frame) :
    template.render format globals = template.evaluateTree document format globals ∧
      ∀ bound, template.renderWithin bound format globals =
        some (template.evaluateTree document format globals) := by
  have h (bound : Nat) : template.renderWithin bound format globals =
      some (template.evaluateTree document format globals) := by
    rw [renderWithin_eq_closures]
    unfold closuresWithin evaluateTree
    cases template.rootFrame globals with
    | error fault => rfl
    | ok frame =>
      have h := block_realizes hp hm hc (template.context format) bound (.ofGlobals frame)
      simp only
      generalize (Meaning.block _ bound .main _).run _ = o at h ⊢
      generalize (Meaning.ofNodes _ _).run _ = p at h ⊢
      cases h with
      | done h => rfl
      | failed h => rfl
  exact ⟨by rw [render, h]; rfl, h⟩

/-- Rows that fail, each inside a handler. -/
def failingRows : TemplateSource :=
  ⟨"<p tal:repeat=\"x xs\"><b tal:on-error=\"x\"><i tal:content=\"y\">old</i></b></p>", none⟩

theorem render_failingRows : ∃ (document : Document) (template : Template),
    Document.parse failingRows.text failingRows.path = .ok document ∧ document.IsMacroFree ∧
    Program.compile (MemoryStore.provider []) .markup failingRows = .ok template.program ∧
    template.render Value.text [("xs", .list [.str "1", .str "2"])] =
      .ok "<p>1</p><p>2</p>" := by
  have hd : (Document.parse failingRows.text failingRows.path).toOption.any (fun d =>
      (Program.compile (MemoryStore.provider []) .markup failingRows).toOption.any fun p =>
        d.IsMacroFree ∧ (⟨p, [], .ofLibraries []⟩ : Template).evaluateTree d Value.text
          [("xs", .list [.str "1", .str "2"])] = .ok "<p>1</p><p>2</p>") := by
    decide +kernel
  cases hp : Document.parse failingRows.text failingRows.path with
  | error fault => rw [hp] at hd; cases hd
  | ok document =>
    cases hc : Program.compile (MemoryStore.provider []) .markup failingRows with
    | error fault => rw [hp, hc] at hd; cases hd
    | ok program =>
      rw [hp, hc] at hd
      obtain ⟨hm, ht⟩ := of_decide_eq_true hd
      refine ⟨document, ⟨program, [], .ofLibraries []⟩, rfl, hm, rfl, ?_⟩
      rw [← ht]
      exact (render_eq_evaluateTree hp hm hc _ _).1

end Template

end MarkupTemplate
