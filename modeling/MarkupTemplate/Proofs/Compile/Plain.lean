import MarkupTemplate.Compile.Basic
import MarkupTemplate.Proofs.Compile.Directives
import MarkupTemplate.Proofs.Markup.Builder

/-!
# Plain templates

A template in which nothing is meant for the compiler is a program that writes it. Every element is kept as
it stands, so a node gives texts alone (`BuildContext.node_texts`), and texts put together are one text
(`Block.ofOperations_texts`).
-/

namespace MarkupTemplate

/-- No element is one of the directive languages, carries a directive or declares their namespaces. -/
def Document.IsPlain (document : Document) : Prop :=
  ∀ start ∈ Node.startsOf document.nodes, start.isKept

instance (document : Document) : Decidable document.IsPlain :=
  inferInstanceAs (Decidable (∀ start ∈ Node.startsOf document.nodes, start.isKept))

/-! ### Texts put together -/

namespace Block

/-- The block that writes a text. -/
def ofText (s : String) : Block :=
  if s = "" then [] else [.literal s]

theorem ofText_eq_map (s : String) :
    ∃ pieces : List String, ofText s = pieces.map .literal ∧ String.join pieces = s := by
  unfold ofText
  split
  · next hs => exact ⟨[], rfl, hs.symm⟩
  · exact ⟨[s], rfl, by simp [String.join_cons]⟩

theorem push_ofText (s t : String) : push (ofText s) (.literal t) = ofText (s ++ t) := by
  by_cases hs : s = ""
  · by_cases ht : t = "" <;> simp [ofText, push, hs, ht]
  · simp [ofText, push, hs]

theorem foldl_push_texts (pieces : List String) (s : String) :
    (pieces.map Operation.literal).foldl push (ofText s) = ofText (s ++ String.join pieces) := by
  induction pieces generalizing s with
  | nil => simp
  | cons piece pieces ih =>
    rw [List.map_cons, List.foldl_cons, push_ofText, ih, String.join_cons, String.append_assoc]

theorem reverse_ofText (s : String) : (ofText s).reverse = ofText s := by
  unfold ofText
  split <;> rfl

theorem ofOperations_texts (pieces : List String) :
    ofOperations (pieces.map .literal) = ofText (String.join pieces) := by
  have h := foldl_push_texts pieces ""
  rw [String.empty_append] at h
  rw [ofOperations, ← reverse_ofText, ← h]
  rfl

end Block

/-! ### Elements that are kept -/

section

variable {start : StartTag}

theorem DirectiveSet.ofTag_of_isKept (h : start.isKept) : ofTag start = .ok ⟨[], []⟩ := by
  have hnone : start.attributes.foldlM (addAttribute start) ⟨[], []⟩ = .ok ⟨[], []⟩ := by
    refine foldlM_fixed fun a ha => ?_
    simp only [StartTag.isKept, Bool.and_eq_true, Bool.not_eq_true', List.any_eq_false,
      Bool.not_eq_true] at h
    have hs := h.1 a ha
    simp only [StartTag.strips, Bool.or_eq_false_iff, Option.isSome_eq_false_iff,
      Option.isNone_iff_eq_none] at hs
    simp only [addAttribute, hs.1]
  unfold ofTag
  rw [hnone]
  simp [inOrder, tal?, bind, Except.bind, pure, Except.pure]

/-- An element that is kept writes its tags around what its children write. -/
theorem BuildContext.element_ofText {build : BuildContext} {closing : Option EndTag}
    {children : Unit → Except TemplateFault Block} {fills : Fills → Except TemplateFault Fills}
    {s : String} (h : start.isKept) (hc : children () = .ok (Block.ofText s)) :
    build.element start closing children fills =
      .ok (Block.ofText (start.text ++ s ++ (closing.map EndTag.text).getD "")) := by
  have hset := DirectiveSet.ofTag_of_isKept h
  have hplain : start.isPlain ⟨[], []⟩ := by
    rw [DirectiveSet.isPlain_iff hset]
    exact h
  obtain ⟨pieces, hp, hs⟩ := Block.ofText_eq_map s
  have hcore : start.core closing ⟨[], []⟩ (Block.ofText s) =
      .ok (Block.ofText (start.text ++ s ++ (closing.map EndTag.text).getD "")) := by
    have hone : (Operation.literal start.text :: Block.ofText s ++
        (closing.map fun e => Operation.literal e.text).toList) =
          (start.text :: pieces ++ (closing.map EndTag.text).toList).map .literal := by
      rw [hp]
      cases closing <;> simp
    rw [StartTag.core, if_pos hplain, hone, Block.ofOperations_texts, List.cons_append,
      String.join_cons, String.join_append, hs, String.append_assoc]
    cases closing <;> simp [String.join_cons, pure, Except.pure]
  simp [element, hset, hc, hcore, DirectiveSet.metal?, DirectiveSet.wrap, DirectiveSet.wrapBy,
    DirectiveSet.read, DirectiveSet.tal?, bind, Except.bind, pure, Except.pure]

mutual

theorem BuildContext.node_texts (build : BuildContext) : ∀ n : Node, (∀ start ∈ n.starts, start.isKept) →
    ∃ pieces : List String, build.node n = .ok (pieces.map .literal) ∧ String.join pieces = n.source
  | .markup _ text _, _ => ⟨[text], rfl, by simp [String.join_cons, Node.source]⟩
  | .element start children closing, h => by
    obtain ⟨inner, hi, hs⟩ := operations_texts build children fun s hs => h s (by simp [Node.starts, hs])
    have hc : (Block.ofOperations <$> build.operations children : Except TemplateFault Block) =
        .ok (Block.ofText (Node.sourceAll children)) := by
      rw [hi, ← hs, ← Block.ofOperations_texts]
      rfl
    obtain ⟨pieces, hp, hj⟩ := Block.ofText_eq_map (Node.element start children closing).source
    refine ⟨pieces, ?_, hj⟩
    rw [node, element_ofText (h start (by simp [Node.starts])) hc, ← hp, Node.source_element]

theorem BuildContext.operations_texts (build : BuildContext) : ∀ ns : List Node,
    (∀ start ∈ Node.startsOf ns, start.isKept) → ∃ pieces : List String,
      build.operations ns = .ok (pieces.map .literal) ∧ String.join pieces = Node.sourceAll ns
  | [], _ => ⟨[], rfl, rfl⟩
  | n :: ns, h => by
    obtain ⟨first, hf, hn⟩ := node_texts build n fun s hs => h s (by simp [Node.startsOf, hs])
    obtain ⟨others, ho, hns⟩ := operations_texts build ns fun s hs => h s (by simp [Node.startsOf, hs])
    refine ⟨first ++ others, ?_, ?_⟩
    · rw [operations, hf, ho, List.map_append]
      rfl
    · rw [String.join_append, hn, hns, Node.sourceAll]

end

mutual

theorem MacroDirectives.ofNode_of_isKept : ∀ n : Node, (∀ start ∈ n.starts, start.isKept) →
    ofNode n = .ok ⟨[], []⟩
  | .markup .., _ => rfl
  | .element start children closing, h => by
    rw [ofNode, DirectiveSet.ofTag_of_isKept (h start (by simp [Node.starts])),
      ofNodes_of_isKept children fun s hs => h s (by simp [Node.starts, hs])]
    rfl

theorem MacroDirectives.ofNodes_of_isKept : ∀ ns : List Node,
    (∀ start ∈ Node.startsOf ns, start.isKept) → ofNodes ns = .ok ⟨[], []⟩
  | [], _ => rfl
  | n :: ns, h => by
    rw [ofNodes, ofNode_of_isKept n fun s hs => h s (by simp [Node.startsOf, hs]),
      ofNodes_of_isKept ns fun s hs => h s (by simp [Node.startsOf, hs])]
    rfl

end

end

/-! ### Programs that write a text -/

namespace Program

variable {program : Program} {s : String}

theorem hostCode_ofText (hb : program.body = Block.ofText s) (hm : program.macros = []) :
    program.hostCode = [] := by
  have he : program.expressions = [] := by
    unfold expressions Block.ofText at *
    rw [hb, hm]
    split <;> simp [Operation.expressionsAll, Operation.expressions]
  rw [hostCode, he]
  rfl

theorem accept_ofText (hb : program.body = Block.ofText s) (hm : program.macros = [])
    {requirements : Requirements} {libraries : List Host.Library}
    (hl : Host.libraries requirements.dependencies.names = .ok libraries) :
    program.accept requirements = .ok ⟨program,
      requirements.globalTypes.map fun g => (g.1, TypeTag.parse? g.2), .ofLibraries libraries⟩ := by
  unfold accept
  rw [hl, hostCode_ofText hb hm]
  rfl

/-- The registry of a template that neither defines nor imports a macro. -/
def bareRegistry (path : Option String) : MacroRegistry :=
  ⟨[⟨path, MacroNames.extend [("", [])] "" []⟩], []⟩

theorem ofMain_of_isPlain {document : Document} (h : document.IsPlain) (provider : ResourceProvider)
    (path : Option String) :
    MacroRegistry.ofMain provider document path = .ok (bareRegistry path) := by
  unfold MacroRegistry.ofMain MacroRegistry.registerDocument
  rw [MacroDirectives.ofNodes_of_isKept document.nodes h]
  rfl

theorem ofDocument_of_isPlain {document : Document} (h : document.IsPlain) (provider : ResourceProvider)
    (path : Option String) : ofDocument provider document path =
      .ok ⟨Block.ofText document.source, [], (bareRegistry path).names 0⟩ := by
  obtain ⟨pieces, hp, hs⟩ := BuildContext.operations_texts ⟨bareRegistry path, [], 0, none⟩ document.nodes h
  have hbody : BuildContext.nodes ⟨bareRegistry path, [], 0, none⟩ document.nodes =
      .ok (Block.ofText document.source) := by
    rw [BuildContext.nodes, hp, Document.source, ← hs, ← Block.ofOperations_texts]
    rfl
  rw [ofDocument, ofMain_of_isPlain h]
  show (do
    let body ← BuildContext.nodes ⟨bareRegistry path, [], 0, none⟩ document.nodes
    return (⟨body, [], (bareRegistry path).names 0⟩ : Program)) = _
  rw [hbody]
  rfl

end Program

namespace Template

variable {template : Template} {s : String}

theorem run_ofText (context : RenderContext) (bound : Nat) (s : String) (σ : RenderState) :
    ∃ τ, (context.runBlock bound (Block.ofText s)).run σ = .done () τ ∧ τ.text = σ.text ++ s := by
  unfold Block.ofText
  split
  · next hs => exact ⟨σ, by cases bound <;> rfl, by rw [hs, String.append_empty]⟩
  · refine ⟨σ.write s, by cases bound <;> rfl, ?_⟩
    simp [RenderState.text, RenderState.write, String.join_append, String.join_cons]

theorem render_ofText (h : template.program.body = Block.ofText s) (format : ValueFormatter)
    (globals : Frame) :
    template.render format globals = (fun _ => s) <$> template.rootFrame globals := by
  unfold render renderWithin
  cases template.rootFrame globals with
  | error fault => rfl
  | ok frame =>
    obtain ⟨τ, hr, ht⟩ := run_ofText (template.context format) depthBound s (.initial (.ofGlobals frame))
    simp only [h, hr, ht]
    exact congrArg Except.ok (String.empty_append)

/-- Values are refused only for types that ask for something. -/
theorem rootFrame_of_untyped (h : ∀ g ∈ template.globals, g.2 = none ∨ g.2 = some .any)
    (globals : Frame) : ∃ frame, template.rootFrame globals = .ok frame := by
  have hany (v : Value) : TypeTag.any.coerce v = .ok v := by cases v <;> rfl
  have hdeclared : ∀ g ∈ template.globals, ∃ entry, declaredGlobal globals g = .ok entry := by
    intro g hg
    unfold declaredGlobal
    rcases h g hg with hn | ha
    · rw [hn]
      exact ⟨_, rfl⟩
    · simp only [ha, hany]
      exact ⟨_, rfl⟩
  obtain ⟨values, hv⟩ := mapM_succeeds hdeclared
  exact ⟨_, by rw [rootFrame, hv]; rfl⟩

end Template

/-! ### Plain templates -/

theorem Document.source_of_run {source : String} {filename : Option String} {b : Builder}
    (hb : (Token.scan source filename).foldlM Builder.step .initial = .ok b) :
    Document.source ⟨b.nodes, filename⟩ = source := by
  have hrun := Builder.source_run hb
  have hcover : String.join ((Token.scan source filename).map Token.text) = source :=
    (Tokenizer.cover_ofSource .markup source filename).join
  rw [hcover] at hrun
  exact hrun.trans String.empty_append

namespace Program

variable {provider : ResourceProvider} {mode : TemplateMode} {source : TemplateSource}

theorem compile_texts (provider : ResourceProvider) (h : mode = .markup → ∃ document,
      Document.parse source.text source.path = .ok document ∧ document.IsPlain) :
    ∃ program, compile provider mode source = .ok program ∧
      program.body = Block.ofText source.text ∧ program.macros = [] := by
  cases mode with
  | text => exact ⟨ofText source.text, rfl, by simp [ofText, Block.ofText], rfl⟩
  | markup =>
    obtain ⟨document, hd, hplain⟩ := h rfl
    obtain ⟨b, hb, rfl⟩ := Document.parse_ok hd
    refine ⟨_, by rw [compile, hd]; exact ofDocument_of_isPlain hplain provider source.path, ?_, rfl⟩
    rw [Document.source_of_run hb]

/-- A plain template, and every template that is read as text, compiles to the one text that it is, and is
written as it stands whatever the globals are. Only types declared for them can refuse their values. -/
theorem compile_of_plain (h : mode = .markup → ∃ document,
      Document.parse source.text source.path = .ok document ∧ document.IsPlain) :
    ∃ program, compile provider mode source = .ok program ∧
      program.body = (if source.text = "" then [] else [.literal source.text]) ∧
      ∀ requirements libraries, Host.libraries requirements.dependencies.names = .ok libraries →
        ∃ template, program.accept requirements = .ok template ∧ ∀ format globals,
          template.render format globals = (fun _ => source.text) <$> template.rootFrame globals ∧
          ((∀ declared ∈ requirements.globalTypes,
              TypeTag.parse? declared.2 = none ∨ TypeTag.parse? declared.2 = some .any) →
            template.render format globals = .ok source.text) := by
  obtain ⟨program, hc, hb, hm⟩ := compile_texts provider h
  refine ⟨program, hc, hb, fun requirements libraries hl => ?_⟩
  obtain ⟨template, ha, hp, hg⟩ : ∃ template, program.accept requirements = .ok template ∧
      template.program = program ∧
      template.globals = requirements.globalTypes.map fun g => (g.1, TypeTag.parse? g.2) :=
    ⟨_, accept_ofText hb hm hl, rfl, rfl⟩
  refine ⟨template, ha, fun format globals => ?_⟩
  have hr := Template.render_ofText (hp ▸ hb) format globals
  refine ⟨hr, fun hu => ?_⟩
  have huntyped : ∀ g ∈ template.globals, g.2 = none ∨ g.2 = some .any := by
    rw [hg]
    intro g hmem
    obtain ⟨declared, hd, rfl⟩ := List.mem_map.1 hmem
    exact hu declared hd
  obtain ⟨frame, hf⟩ := Template.rootFrame_of_untyped huntyped globals
  rw [hr, hf]
  rfl

/-- Markup with foreign namespaces, in which an end tag passes over a start tag and another is missing. -/
def foreignMarkup : TemplateSource :=
  ⟨"<!DOCTYPE html>\n<ul xmlns:x=\"urn:x\"><li x:a='1' b>é<br><hr/></ul ><i>1 < 2 &amp; <!-- - -->", none⟩

theorem compile_of_plain_foreign : ∃ program,
    compile (MemoryStore.provider []) .markup foreignMarkup = .ok program ∧
    program.body = [.literal foreignMarkup.text] ∧
    ∃ template, program.accept ⟨[("n", "any")], [("text", ())]⟩ = .ok template ∧ ∀ globals,
      template.render Value.text globals = .ok foreignMarkup.text := by
  have hd : (Document.parse foreignMarkup.text foreignMarkup.path).toOption.any (·.IsPlain) := by
    decide +kernel
  cases hp : Document.parse foreignMarkup.text foreignMarkup.path with
  | error fault => rw [hp] at hd; cases hd
  | ok document =>
    rw [hp] at hd
    have hplain : TemplateMode.markup = .markup → ∃ document,
        Document.parse foreignMarkup.text foreignMarkup.path = .ok document ∧ document.IsPlain :=
      fun _ => ⟨document, hp, of_decide_eq_true hd⟩
    obtain ⟨program, hc, hb, hr⟩ := @compile_of_plain (MemoryStore.provider []) _ _ hplain
    obtain ⟨template, ha, hr⟩ := hr ⟨[("n", "any")], [("text", ())]⟩ [.core, .text] rfl
    exact ⟨program, hc, hb, template, ha, fun globals => (hr Value.text globals).2 (by decide)⟩

end Program

end MarkupTemplate
