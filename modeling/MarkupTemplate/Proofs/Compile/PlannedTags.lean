import MarkupTemplate.Proofs.Compile.Provenance
import MarkupTemplate.Proofs.Compile.StaticTags
import MarkupTemplate.Proofs.Render.TagOutputs
import MarkupTemplate.Proofs.Render.Values

/-!
# Where the tags of a program come from

Every element of a compiled program has the tags of an element of the main template or of an imported one
(`Program.planned_of_compile`). So its start tag is one of the grammar whatever is computed for its
attributes, and is read as it was meant (`Program.startTag_reads`).
-/

namespace MarkupTemplate

/-! ### Tags of programs -/

theorem BuildContext.lays_planned (build : BuildContext) (H : Element → Prop) :
    build.Lays H (·.IsPlanned H) where
  plain hbody _ := by
    rintro _ _ rfl
    cases hbody
  around _ hplanned := hplanned
  inPlace _ _ _ := nofun
  call _ _ := nofun

/-- The tag is one of a tree that was read. -/
def StartTag.IsParsed (start : StartTag) : Prop :=
  ∃ text filename document, Document.parse text filename = .ok document ∧
    start ∈ Node.startsOf document.nodes

theorem StartTag.IsParsed.isRead {start : StartTag} (h : start.IsParsed) : start.IsRead := by
  obtain ⟨text, filename, document, hd, hs⟩ := h
  exact Document.isRead_of_mem_startsOf hd hs

/-- A plan for a tag that was read holds parts of a tag. -/
theorem StartTag.isReadable_of_plan {start : StartTag} {closing : Option EndTag} {set : DirectiveSet}
    {tag : TagPlan} (hs : start.IsRead) (h : start.plan closing set = .ok tag) : tag.IsReadable := by
  obtain ⟨hname, hattributes, -, -, hclose, -⟩ := plan_ok h
  refine ⟨by rw [hname]; exact hs.isStart.name, ?_, ?_⟩
  · rw [hattributes]
    intro a ha
    obtain ⟨b, hb, rfl⟩ := List.mem_map.1 ha
    have hb := (List.mem_filter.1 hb).1
    exact ⟨hs.isStart.attributes _ (List.mem_map_of_mem hb), hs.valueless b hb⟩
  · rw [hclose]
    split
    · exact ⟨[], rfl, .inl rfl⟩
    · exact hs.isStart.close

namespace Program

variable {provider : ResourceProvider} {mode : TemplateMode} {source : TemplateSource} {program : Program}
  {tag : TagPlan} {body : Block}

/-- The tags of a compiled program's elements are planned for tags of the templates. -/
theorem planned_of_compile (h : compile provider mode source = .ok program)
    (hop : program.Contains (.element tag body)) :
    ∃ start : StartTag, ∃ closing set, start.IsParsed ∧ start.plan closing set = .ok tag := by
  rcases compile_cases h with ⟨-, rfl⟩ | ⟨-, document, hd, h⟩
  · obtain ⟨s, hs⟩ := contains_ofText hop
    cases hs
  · let c : Compilation := ⟨provider, document, source.path⟩
    obtain ⟨element, set, ⟨path, tree, -, htree, he⟩, hplan⟩ :=
      c.of_contains h (BuildContext.lays_planned · _) hop tag body rfl
    have hstart : element.start ∈ Node.startsOf tree.nodes :=
      Node.startsOf_eq_map _ ▸ List.mem_map_of_mem he
    refine ⟨element.start, element.closing, set, ?_, hplan⟩
    cases htree with
    | main => exact ⟨_, _, document, hd, hstart⟩
    | loaded _ _ hparse => exact ⟨_, _, tree, hparse, hstart⟩

end Program

/-! ### Start tags that are written -/

namespace RenderContext

variable {context : RenderContext} {scope : Scope}

theorem computedValues_ok {computed : List ComputedAttribute} {given values : ComputedValues}
    (h : context.computedValues scope given computed = .ok values) :
    ∃ vs : List Value, vs.length = computed.length ∧
      values = (computed.zip vs).foldl (fun values entry => values.put entry.1.name entry.2) given := by
  induction computed generalizing given with
  | nil =>
    cases h
    exact ⟨[], rfl, rfl⟩
  | cons a computed ih =>
    obtain ⟨v, -, h⟩ := bind_eq_ok.1 h
    obtain ⟨vs, hlen, h⟩ := ih h
    exact ⟨v :: vs, congrArg (· + 1) hlen, h⟩

/-- A start tag that is written has one value for each computed attribute. -/
theorem startTag_ok {tag : TagPlan} {text : String} (h : context.startTag scope tag = .ok text) :
    ∃ vs : List Value, vs.length = tag.computed.length ∧
      text = tag.startTag context.format (tag.valuesOf vs) := by
  obtain ⟨values, hv, rfl⟩ := map_eq_ok.1 h
  obtain ⟨vs, hlen, rfl⟩ := computedValues_ok hv
  exact ⟨vs, hlen, rfl⟩

end RenderContext

namespace Program

variable {provider : ResourceProvider} {mode : TemplateMode} {source : TemplateSource} {program : Program}
  {tag : TagPlan} {body : Block}

/-- An element of a compiled program has the tag of an element of a template. Whatever the values of its
computed attributes are and however they are formatted, its start tag is read as one token with the
attributes that were written: those of the template as they stand there, and the others with the texts that
their values stand for. -/
theorem startTag_reads (h : compile provider mode source = .ok program)
    (hop : program.Contains (.element tag body)) (hnames : ∀ a ∈ tag.computed, isName a.name.toList) :
    (∃ start : StartTag, ∃ closing set, start.IsParsed ∧ start.plan closing set = .ok tag ∧
      tag.name = start.rawName ∧ tag.attributes = start.carried) ∧
    (∀ context scope text, RenderContext.startTag context scope tag = .ok text →
      ∃ vs : List Value, vs.length = tag.computed.length ∧
        text = tag.startTag context.format (tag.valuesOf vs)) ∧
    ∀ (format : ValueFormatter) (vs : List Value) (filename : Option String),
      tag.startTag format (tag.valuesOf vs) = "<" ++ tag.name ++
        TagOutput.text format (tag.outputs (tag.valuesOf vs)) ++ tag.close ∧
      ∃ token : Token, Token.scan (tag.startTag format (tag.valuesOf vs)) filename = [token] ∧
        token.kind.OpensTag ∧ token.tagName?.map Token.text = some tag.name ∧ token.tagClose = tag.close ∧
        token.attributesIn = token.attributes ∧
        List.Forall₂ (TagOutput.Reads format) (tag.outputs (tag.valuesOf vs)) token.attributes := by
  obtain ⟨start, closing, set, hs, hplan⟩ := planned_of_compile h hop
  obtain ⟨hname, hattributes, -⟩ := StartTag.plan_ok hplan
  refine ⟨⟨start, closing, set, hs, hplan, hname, hattributes⟩, fun _ _ _ => RenderContext.startTag_ok, ?_⟩
  intro format vs filename
  have hreadable := StartTag.isReadable_of_plan hs.isRead hplan
  have hvalues : ∀ entry ∈ tag.valuesOf vs, isName entry.1.toList := by
    intro entry he
    obtain ⟨a, ha, hname⟩ := TagPlan.mem_valuesOf he
    rw [hname]
    exact hnames a ha
  exact ⟨TagPlan.startTag_eq .., TagPlan.reads_startTag hreadable hvalues format filename⟩

/-- An attribute without quotes, one without a value, one that the tag does not have and one that is dropped
are computed. -/
def computedTag : TemplateSource :=
  ⟨"<a href=x title='t' tal:attributes=\"href h; class c; id n; checked d\" id='i' checked />", none⟩

/-- The block is one element, whose start tag is `text` for these values. -/
def isElement (block : Block) (vs : List Value) (text : String) : Bool :=
  match block with
  | [.element tag _] =>
    tag.computed.all (fun a => isName a.name.toList) && tag.startTag Value.text (tag.valuesOf vs) == text
  | _ => false

theorem startTag_reads_computedTag : ∃ program tag body,
    compile (MemoryStore.ofTexts []).provider .markup computedTag = .ok program ∧
      program.Contains (.element tag body) ∧ (∀ a ∈ tag.computed, isName a.name.toList) ∧
      ∃ token : Token,
        Token.scan "<a href=\"&quot;&apos;&lt;&gt;&amp;\n\" title='t' checked class=\"class\" />" none = [token] ∧
        token.tagName?.map Token.text = some tag.name ∧
        List.Forall₂ (TagOutput.Reads Value.text)
          (tag.outputs (tag.valuesOf [.str "\"'<>&\n", .bool true, .nothing, .default])) token.attributes := by
  have hc : (compile (MemoryStore.ofTexts []).provider .markup computedTag).toOption.any fun program =>
      isElement program.body [.str "\"'<>&\n", .bool true, .nothing, .default]
        "<a href=\"&quot;&apos;&lt;&gt;&amp;\n\" title='t' checked class=\"class\" />" := by
    decide +kernel
  cases hp : compile (MemoryStore.ofTexts []).provider .markup computedTag with
  | error fault => rw [hp] at hc; cases hc
  | ok program =>
    rw [hp] at hc
    obtain ⟨block, macros, namespaces⟩ := program
    have hc : isElement block _ _ = true := hc
    unfold isElement at hc
    split at hc
    · next tag body _ =>
      obtain ⟨hnames, htext⟩ := Bool.and_eq_true_iff.1 hc
      have hnames : ∀ a ∈ tag.computed, isName a.name.toList := by simpa using hnames
      have hop : Contains ⟨[.element tag body], macros, namespaces⟩ (.element tag body) :=
        ⟨[.element tag body], by simp [blocks], by simp⟩
      obtain ⟨-, token, hscan, -, hname, -, -, hreads⟩ := (startTag_reads hp hop hnames).2.2 Value.text
        [.str "\"'<>&\n", .bool true, .nothing, .default] none
      rw [beq_iff_eq.1 htext] at hscan
      exact ⟨_, tag, body, rfl, hop, hnames, token, hscan, hname, hreads⟩
    · cases hc

end Program

end MarkupTemplate
