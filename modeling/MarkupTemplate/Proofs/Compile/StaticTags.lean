import MarkupTemplate.Proofs.Markup.StartTags
import MarkupTemplate.Proofs.Render.Trees

/-!
# Start tags that are written without being computed

A tag token is its name, its attributes and its close in order, and so is a start tag of a tree. An element
whose tags are neither computed nor left out gets the start tag of its source, without the attributes that
are directives or declare a namespace of directives (`Document.staticTags`).
-/

namespace MarkupTemplate

mutual

theorem Node.tags_eq_starts : ∀ n : Node, n.tags = n.starts
  | .markup .. => rfl
  | .element start children closing => by rw [tags, starts, tagsAll_eq_startsOf children]

theorem Node.tagsAll_eq_startsOf : ∀ ns : List Node, tagsAll ns = startsOf ns
  | [] => rfl
  | n :: ns => by rw [tagsAll, startsOf, tags_eq_starts n, tagsAll_eq_startsOf ns]

end

theorem Document.isRead_of_mem_startsOf {source : String} {filename : Option String} {document : Document}
    (h : parse source filename = .ok document) {start : StartTag}
    (hs : start ∈ Node.startsOf document.nodes) : start.IsRead :=
  isRead_of_parse h start (by rwa [Node.tagsAll_eq_startsOf])

/-- The attribute is a directive, or declares a namespace of directives. -/
def Attribute.isRemoved (a : Attribute) : Bool :=
  a.name.isIn talSpace || a.name.isIn metalSpace ||
    (a.name.isIn xmlnsSpace && (a.value == some talSpace || a.value == some metalSpace))

namespace StartTag

variable {start : StartTag} {closing : Option EndTag} {set : DirectiveSet} {children block : Block}
  {tag : TagPlan}

/-- The tag as it stands in its source, but without directives and declarations of their namespaces. -/
def withoutDirectives (start : StartTag) (close : String) : String :=
  "<" ++ start.rawName ++
    String.join ((start.attributes.filter fun a => !a.isRemoved).map Attribute.source) ++ close

/-- The element closes itself, but gets content. -/
def opensUp (start : StartTag) (set : DirectiveSet) : Bool :=
  start.selfClosing && set.content?.isSome

/-- Content between the tags of the source, the first one without directives. -/
def enclosing (start : StartTag) (closing : Option EndTag) (set : DirectiveSet) (body : Block) : Block :=
  let opening := start.withoutDirectives (if start.opensUp set then ">" else start.close)
  let ending := if start.opensUp set then some ("</" ++ start.rawName ++ ">") else closing.map EndTag.text
  Block.ofOperations (.literal opening :: body ++ (ending.map Operation.literal).toList)

/-- On an element that is no directive itself, only names with a prefix are directives. -/
theorem strips_eq_isRemoved (h : start.isDirective = false) (a : Attribute) : start.strips a = a.isRemoved := by
  have hname : start.name.language? = none := by simpa [isDirective] using h
  have hlanguage : (start.language? a).isSome = (a.name.isIn talSpace || a.name.isIn metalSpace) := by
    unfold language? QName.language?
    cases ht : a.name.isIn talSpace with
    | true => rfl
    | false =>
      cases hm : a.name.isIn metalSpace with
      | true => rfl
      | false =>
        have hspace : (if start.name.isIn talSpace = true then some DirectiveLanguage.tal
            else if start.name.isIn metalSpace = true then some .metal else none) = none := hname
        simp only [Bool.false_eq_true, if_false, hspace]
        split <;> rfl
  rw [strips, Attribute.isRemoved, hlanguage]

theorem staticStart_of_plan (h : start.plan closing set = .ok tag) (ho : tag.omission = .never) :
    tag.staticStart = start.withoutDirectives (if start.opensUp set then ">" else start.close) := by
  obtain ⟨hname, hattributes, -, homission, hclose, -⟩ := plan_ok h
  have hd : start.isDirective = false := by
    cases hd : start.isDirective with
    | false => rfl
    | true => rw [hd, ho] at homission; cases homission
  have hstrips : start.strips = Attribute.isRemoved := funext (strips_eq_isRemoved hd)
  have hsource : StaticAttribute.source ∘ Attribute.carried = Attribute.source := rfl
  rw [TagPlan.staticStart, hname, hattributes, hclose, carried, hstrips, List.map_map, hsource]
  rfl

theorem wrap_of_plan (h : start.plan closing set = .ok tag) (ho : tag.omission = .never)
    (hc : tag.computed = []) (body : Block) : tag.wrap body = start.enclosing closing set body := by
  obtain ⟨-, -, -, -, -, hclosing⟩ := plan_ok h
  rw [TagPlan.wrap, ho, hc]
  dsimp only
  rw [staticStart_of_plan h ho, hclosing]
  rfl

/-- The block of an element with stripped attributes whose tags are neither computed nor left out. -/
theorem core_of_static (hcore : start.core closing set children = .ok block)
    (hr : start.attributes.any Attribute.isRemoved) (h : start.plan closing set = .ok tag)
    (ho : tag.omission = .never) (hc : tag.computed = []) :
    (set.content? = none ∧ block = start.enclosing closing set children) ∨
      ∃ d asMarkup value, set.content? = some d ∧
        Directive.content d.argument d.location = .ok (asMarkup, value) ∧
        block = if d.kind = .replace then [.emit value asMarkup (start.enclosing closing set children)]
          else start.enclosing closing set [.emit value asMarkup children] := by
  have hd : start.isDirective = false := by
    obtain ⟨-, -, -, homission, -⟩ := plan_ok h
    cases hd : start.isDirective with
    | false => rfl
    | true => rw [hd, ho] at homission; cases homission
  rcases core_ok hcore with ⟨hplain, -⟩ | ⟨-, plan, hplan, hblock⟩
  · have hstrips : start.strips = Attribute.isRemoved := funext (strips_eq_isRemoved hd)
    simp only [isPlain, hstrips, hr, Bool.not_true, Bool.and_false, Bool.false_and] at hplain
    cases hplain
  · rw [h] at hplan
    cases hplan
    rcases hblock with ⟨hnone, rfl⟩ | ⟨d, asMarkup, value, hsome, hvalue, rfl⟩
    · exact .inl ⟨hnone, wrap_of_plan h ho hc children⟩
    · refine .inr ⟨d, asMarkup, value, hsome, hvalue, ?_⟩
      rw [wrap_of_plan h ho hc, wrap_of_plan h ho hc]

end StartTag

namespace Document

/-- Tag tokens are what they are taken apart into. An element whose tags are neither computed nor left out
has the start tag of its source, without directives and declarations of their namespaces. -/
theorem staticTags (source : String) (filename : Option String) :
    (∀ token ∈ Token.scan source filename, token.kind.OpensTag →
      (∃ name, token.tagName? = some name ∧ token.text =
        "<" ++ name.text ++ String.join (token.attributes.map AttributeToken.source) ++ token.tagClose) ∧
      token.attributesIn = token.attributes ∧
      token.tagClose = String.ofList (closeOf token.text.toList)) ∧
    ∀ document, parse source filename = .ok document → ∀ start ∈ Node.startsOf document.nodes,
      start.text = "<" ++ start.rawName ++ String.join (start.attributes.map Attribute.source) ++
        start.close ∧
      ∀ closing set children block tag, start.core closing set children = .ok block →
        start.attributes.any Attribute.isRemoved → start.plan closing set = .ok tag →
        tag.omission = .never → tag.computed = [] →
        (set.content? = none ∧ block = start.enclosing closing set children) ∨
          ∃ d asMarkup value, set.content? = some d ∧
            Directive.content d.argument d.location = .ok (asMarkup, value) ∧
            block = if d.kind = .replace then [.emit value asMarkup (start.enclosing closing set children)]
              else start.enclosing closing set [.emit value asMarkup children] := by
  constructor
  · intro token ht ho
    obtain ⟨t, hstart, hchars, htag⟩ := Token.isTag_of_mem_scan ht ho
    exact ⟨Token.parts_of_tag hstart hchars htag, Token.attributesIn_eq hstart hchars htag,
      Token.tagClose_eq hstart hchars htag⟩
  · intro document h start hs
    refine ⟨(isRead_of_mem_startsOf h hs).text_eq, ?_⟩
    intro closing set children block tag hcore hr hplan ho hc
    exact StartTag.core_of_static hcore hr hplan ho hc

/-- A tag that closes itself, gets content, and has attributes of every form. -/
def mixedTag : String :=
  "<p title='a>b' tal:content=\"x\" checked id = y xmlns:tal=\"http://xml.zope.org/namespaces/tal\" />"

/-- The tag is opened up for content, and `text` is all that is left of it. -/
def leaves (start : StartTag) (text : String) : Bool :=
  (DirectiveSet.ofTag start).toOption.any fun set =>
    (start.core none set []).toOption.isSome && start.attributes.any Attribute.isRemoved &&
      start.opensUp set && start.withoutDirectives ">" == text &&
      (start.plan none set).toOption.any fun tag =>
        (match tag.omission with | .never => true | _ => false) && tag.computed.isEmpty

theorem staticTags_mixed : ∃ document, parse mixedTag none = .ok document ∧
    ∃ start ∈ Node.startsOf document.nodes, ∃ set block, start.core none set [] = .ok block ∧
      start.opensUp set ∧ start.withoutDirectives ">" = "<p title='a>b' checked id = y>" ∧
      ((set.content? = none ∧ block = start.enclosing none set []) ∨
        ∃ d asMarkup value, set.content? = some d ∧
          Directive.content d.argument d.location = .ok (asMarkup, value) ∧
          block = if d.kind = .replace then [.emit value asMarkup (start.enclosing none set [])]
            else start.enclosing none set [.emit value asMarkup []]) := by
  have hb : (parse mixedTag none).toOption.any fun document =>
      (Node.startsOf document.nodes).any (leaves · "<p title='a>b' checked id = y>") := by
    decide +kernel
  cases hp : parse mixedTag none with
  | error fault => rw [hp] at hb; cases hb
  | ok document =>
    rw [hp] at hb
    obtain ⟨start, hs, hb⟩ := List.any_eq_true.1 hb
    unfold leaves at hb
    cases hset : DirectiveSet.ofTag start with
    | error fault => rw [hset] at hb; cases hb
    | ok set =>
      rw [hset] at hb
      simp only [Except.toOption, Option.any_some, Bool.and_eq_true, beq_iff_eq] at hb
      obtain ⟨⟨⟨⟨hcore, hr⟩, ho⟩, htext⟩, htag⟩ := hb
      cases hc : start.core none set [] with
      | error fault => rw [hc] at hcore; cases hcore
      | ok block =>
        cases hplan : start.plan none set with
        | error fault => rw [hplan] at htag; cases htag
        | ok tag =>
          rw [hplan] at htag
          simp only [Option.any_some, Bool.and_eq_true, List.isEmpty_iff] at htag
          have hnever : tag.omission = .never := by
            cases h : tag.omission with
            | never => rfl
            | _ => rw [h] at htag; cases htag.1
          have hkept := ((staticTags mixedTag none).2 document hp start hs).2 none set [] block tag hc hr
            hplan hnever htag.2
          exact ⟨document, rfl, start, hs, set, block, hc, ho, htext, hkept⟩

end Document

end MarkupTemplate
