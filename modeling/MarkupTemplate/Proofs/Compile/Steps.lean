import MarkupTemplate.Compile.Basic
import MarkupTemplate.Proofs.Results

/-!
# What the compiler has done

The block that each step of the compiler gives, if it gives one, in terms of what the directives of the
element say. Everything about compiled blocks is told from here.
-/

namespace MarkupTemplate

theorem CompileProblem.located_ok {α : Type} {location : Location} {x : Except CompileProblem α} {a : α}
    (h : located location x = .ok a) : x = .ok a := by
  cases x with
  | ok b => cases h; rfl
  | error problem => cases h

namespace DirectiveSet

/-- What the argument of a directive says, if the directive is there. -/
def said? {α : Type} (set : DirectiveSet) (kind : TalKind)
    (parse : String → Location → Except CompileProblem α) : Option α :=
  (set.tal? kind).bind fun d => (parse d.argument d.location).toOption

variable {α : Type} {set : DirectiveSet} {kind : TalKind} {block out : Block}
  {parse : String → Location → Except CompileProblem α}

theorem said?_some {d : Directive TalKind} {a : α} (hd : set.tal? kind = some d)
    (hp : parse d.argument d.location = .ok a) : set.said? kind parse = some a := by
  simp only [said?, hd, Option.bind_some, hp, Except.toOption]

theorem said?_none (hd : set.tal? kind = none) : set.said? kind parse = none := by
  simp only [said?, hd, Option.bind_none]

theorem read_ok {absent a : α} (h : set.read kind absent parse = .ok a) :
    a = (set.said? kind parse).getD absent := by
  unfold read at h
  cases hd : set.tal? kind with
  | none =>
    simp only [hd] at h
    cases h
    rw [said?_none hd, Option.getD_none]
  | some d =>
    simp only [hd] at h
    rw [said?_some hd (CompileProblem.located_ok h), Option.getD_some]

theorem wrapBy_ok {wrap : α → Block → Block} (h : set.wrapBy kind parse wrap block = .ok out) :
    out = (set.said? kind parse).elim block (wrap · block) := by
  unfold wrapBy read at h
  cases hd : set.tal? kind with
  | none =>
    simp only [hd] at h
    cases h
    rw [said?_none hd, Option.elim_none]
  | some d =>
    simp only [hd] at h
    obtain ⟨a, ha, h⟩ := map_eq_ok.1 (CompileProblem.located_ok h)
    rw [said?_some hd ha, Option.elim_some, ← h]

/-- A block with all that the directives say around it. -/
def wrapped (set : DirectiveSet) (block : Block) : Block :=
  let block := (set.said? .loop Directive.loop).elim block fun (name, items) =>
    [.repeat name items block]
  let block := (set.said? .condition fun argument => Directive.expression argument.toList).elim block
    fun test => [.condition test block]
  let block := (set.said? .define Directive.definitions).elim block (inScope · block)
  (set.said? .onError Directive.handler).elim block fun (asMarkup, value) =>
    [.onError block value asMarkup]

theorem wrap_ok (h : set.wrap block = .ok out) : out = set.wrapped block := by
  unfold wrap at h
  obtain ⟨b, hb, h⟩ := bind_eq_ok.1 h
  obtain ⟨c, hc, h⟩ := bind_eq_ok.1 h
  obtain ⟨d, hd, h⟩ := bind_eq_ok.1 h
  rw [wrapBy_ok h, wrapBy_ok hd, wrapBy_ok hc, wrapBy_ok hb]
  rfl

end DirectiveSet

namespace StartTag

variable {start : StartTag} {closing : Option EndTag} {set : DirectiveSet} {children out : Block}

theorem plan_ok {tag : TagPlan} (h : start.plan closing set = .ok tag) :
    tag.name = start.rawName ∧ tag.attributes = start.carried ∧
    tag.computed = (set.said? .attributes Directive.computedAttributes).getD [] ∧
    tag.omission = (if start.isDirective then .always
      else (set.said? .omitTag Directive.omission).getD .never) ∧
    tag.close = (if start.selfClosing && set.content?.isSome then ">" else start.close) ∧
    tag.closing = if start.selfClosing && set.content?.isSome then
      some ("</" ++ start.rawName ++ ">") else closing.map EndTag.text := by
  unfold plan at h
  obtain ⟨computed, hc, h⟩ := bind_eq_ok.1 h
  split at h <;> rename_i hd <;> obtain ⟨omission, ho, h⟩ := bind_eq_ok.1 h <;> cases h
  · refine ⟨rfl, rfl, DirectiveSet.read_ok hc, ?_, rfl, rfl⟩
    cases ho
    exact (if_pos hd).symm
  · refine ⟨rfl, rfl, DirectiveSet.read_ok hc, ?_, rfl, rfl⟩
    exact (DirectiveSet.read_ok ho).trans (if_neg hd).symm

/-- The block of an element without what is wrapped around it: as texts, or its tags and content. -/
theorem core_ok (h : start.core closing set children = .ok out) :
    start.isPlain set ∧ out = Block.ofOperations
      (.literal start.text :: children ++ (closing.map fun e => .literal e.text).toList) ∨
    start.isPlain set = false ∧ ∃ tag, start.plan closing set = .ok tag ∧
      (set.content? = none ∧ out = tag.wrap children ∨
        ∃ d asMarkup value, set.content? = some d ∧
          Directive.content d.argument d.location = .ok (asMarkup, value) ∧
          out = if d.kind = .replace then [.emit value asMarkup (tag.wrap children)]
            else tag.wrap [.emit value asMarkup children]) := by
  unfold core at h
  cases hp : start.isPlain set with
  | true =>
    simp only [hp, if_true] at h
    cases h
    exact .inl ⟨rfl, rfl⟩
  | false =>
    refine .inr ⟨rfl, ?_⟩
    rw [hp, if_neg (by simp)] at h
    obtain ⟨tag, ht, h⟩ := bind_eq_ok.1 h
    refine ⟨tag, ht, ?_⟩
    cases hc : set.content? with
    | none =>
      rw [hc] at h
      cases h
      exact .inl ⟨rfl, rfl⟩
    | some d =>
      rw [hc] at h
      obtain ⟨⟨asMarkup, value⟩, hv, h⟩ := bind_eq_ok.1 h
      refine .inr ⟨d, asMarkup, value, rfl, CompileProblem.located_ok hv, ?_⟩
      simp only at h
      split at h <;> rename_i hk <;> cases h
      · exact (if_pos hk).symm
      · exact (if_neg hk).symm

end StartTag

namespace BuildContext

variable {build : BuildContext} {set : DirectiveSet} {out : Block}

theorem slot_ok {d : Directive MetalKind} {block : Block} (h : slot d block = .ok out) :
    out = [.slot (Text.trimString d.argument) block] := by
  unfold slot at h
  simp only at h
  split at h <;> cases h
  rfl

/-- The block of an element: the call of the macro it defines, or what it calls or holds, with what its
directives say around that, as a slot if it is one. -/
theorem element_ok {start : StartTag} {closing : Option EndTag}
    {children : Unit → Except TemplateFault Block} {fills : Fills → Except TemplateFault Fills}
    (h : build.element start closing children fills = .ok out) :
    ∃ set, DirectiveSet.ofTag start = .ok set ∧
      ((set.metal? .defineMacro).isSome ∧
          (∃ id, build.registry.definitionAt? build.unit start.location.offset = some id ∧
            out = [.callMacro (.known id) [] [] start.location]) ∨
        ∃ core,
          (match set.metal? .useMacro with
            | some use => build.call set use fills = .ok core
            | none => ∃ block, children () = .ok block ∧ start.core closing set block = .ok core) ∧
          out = match set.metal? .defineSlot with
            | some d => [.slot (Text.trimString d.argument) (set.wrapped core)]
            | none => set.wrapped core) := by
  unfold element at h
  obtain ⟨set, hset, h⟩ := bind_eq_ok.1 h
  refine ⟨set, hset, ?_⟩
  split at h
  · rename_i hd
    refine .inl ⟨(Bool.and_eq_true_iff.1 hd).1, ?_⟩
    unfold callInPlace at h
    split at h <;> cases h
    rename_i hid
    exact ⟨_, hid, rfl⟩
  · simp only at h
    split at h
    · cases h
    · refine .inr ?_
      have hw : ∃ core, (match set.metal? .useMacro with
            | some use => build.call set use fills = .ok core
            | none => ∃ block, children () = .ok block ∧ start.core closing set block = .ok core) ∧
          (do
            let block ← set.wrap core
            match set.metal? .defineSlot with
            | some d => slot d block
            | none => return block) = .ok out := by
        cases hu : set.metal? .useMacro with
        | some use =>
          simp only [hu] at h
          obtain ⟨core, hc, h⟩ := bind_eq_ok.1 h
          exact ⟨core, hc, h⟩
        | none =>
          simp only [hu] at h
          obtain ⟨block, hb, h⟩ := bind_eq_ok.1 h
          obtain ⟨core, hc, h⟩ := bind_eq_ok.1 h
          exact ⟨core, ⟨block, hb, hc⟩, h⟩
      obtain ⟨core, hc, h⟩ := hw
      refine ⟨core, hc, ?_⟩
      obtain ⟨block, hb, h⟩ := bind_eq_ok.1 h
      rw [← DirectiveSet.wrap_ok hb]
      split at h
      · exact slot_ok h
      · cases h; rfl

end BuildContext

/-! ### Programs -/

theorem MacroRegistry.build_ok {r : MacroRegistry} {parameters : List (List Parameter)}
    {d : MacroDefinition} {declared : List Parameter} {m : Macro}
    (h : r.build parameters (d, declared) = .ok m) :
    m.name = d.name ∧ m.parameters = declared ∧
      BuildContext.element ⟨r, parameters, d.unit, some d.location.offset⟩ d.element.start d.element.closing
        (fun _ => BuildContext.nodes ⟨r, parameters, d.unit, some d.location.offset⟩ d.element.children)
        (fun found => BuildContext.fillsOf ⟨r, parameters, d.unit, some d.location.offset⟩ found
          d.element.children) = .ok m.body := by
  obtain ⟨body, hb, h⟩ := bind_eq_ok.1 h
  cases h
  exact ⟨rfl, rfl, hb⟩

namespace Program

variable {provider : ResourceProvider} {program : Program}

/-- A program of a tree: its macros in the order of their definitions, each with its parameters, its body,
and the names that the main template sees. -/
theorem ofDocument_ok {document : Document} {path : Option String}
    (h : ofDocument provider document path = .ok program) :
    ∃ r parameters, MacroRegistry.ofMain provider document path = .ok r ∧
      r.definitions.mapM (fun d => d.element.parameters) = .ok parameters ∧
      (r.definitions.zip parameters).mapM (r.build parameters) = .ok program.macros ∧
      BuildContext.nodes ⟨r, parameters, 0, none⟩ document.nodes = .ok program.body ∧
      program.namespaces = r.names 0 := by
  obtain ⟨r, hr, h⟩ := bind_eq_ok.1 h
  obtain ⟨parameters, hp, h⟩ := bind_eq_ok.1 h
  obtain ⟨macros, hm, h⟩ := bind_eq_ok.1 h
  obtain ⟨body, hb, h⟩ := bind_eq_ok.1 h
  cases h
  exact ⟨r, parameters, hr, hp, hm, hb, rfl⟩

theorem compile_of_parse {source : TemplateSource} {document : Document}
    (hd : Document.parse source.text source.path = .ok document) :
    compile provider .markup source = ofDocument provider document source.path := by
  unfold compile
  rw [hd]

theorem ofDocument_of_compile {source : TemplateSource} {document : Document}
    (hd : Document.parse source.text source.path = .ok document)
    (hc : compile provider .markup source = .ok program) :
    ofDocument provider document source.path = .ok program :=
  compile_of_parse hd ▸ hc

theorem compile_cases {mode : TemplateMode} {source : TemplateSource}
    (h : compile provider mode source = .ok program) :
    mode = .text ∧ program = ofText source.text ∨
      mode = .markup ∧ ∃ document, Document.parse source.text source.path = .ok document ∧
        ofDocument provider document source.path = .ok program := by
  cases mode with
  | text => cases h; exact .inl ⟨rfl, rfl⟩
  | markup =>
    simp only [compile] at h
    split at h
    · cases h
    · exact .inr ⟨rfl, _, by assumption, h⟩

end Program

end MarkupTemplate
