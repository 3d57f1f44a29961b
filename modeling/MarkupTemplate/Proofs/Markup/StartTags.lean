import MarkupTemplate.Proofs.Markup.TagTokens

/-!
# Start tags of trees

A start tag of a tree holds every character of the tag that it was read from: what its name, its attributes
and its close write is its text again (`Document.isRead_of_parse`).
-/

namespace MarkupTemplate

/-- The attribute as it is written. -/
def Attribute.written (a : Attribute) : WrittenAttribute :=
  writtenAttribute a.leading a.rawName a.equals a.value a.quote

theorem Attribute.source_eq (a : Attribute) : a.source = String.ofList a.written.chars :=
  attributeSource_eq ..

/-- The tag as it is written. -/
def StartTag.tag (start : StartTag) : WrittenTag :=
  ⟨false, start.rawName.toList, start.attributes.map Attribute.written, start.close.toList⟩

/-- The tag is one of the grammar, and its parts make up its text. -/
structure StartTag.IsRead (start : StartTag) : Prop where
  isStart : start.tag.IsStart
  text : start.text.toList = start.tag.chars
  valueless : ∀ a ∈ start.attributes, a.value = none → a.equals = none ∧ a.quote = none

theorem StartTag.IsRead.text_eq {start : StartTag} (h : start.IsRead) :
    start.text = "<" ++ start.rawName ++ String.join (start.attributes.map Attribute.source) ++
      start.close := by
  have hjoin : ∀ as : List Attribute, String.join (as.map Attribute.source) =
      String.ofList ((as.map Attribute.written).flatMap WrittenAttribute.chars) := by
    intro as
    induction as with
    | nil => rfl
    | cons a as ih =>
      rw [List.map_cons, String.join_cons, ih, Attribute.source_eq, ← String.ofList_append, List.map_cons,
        List.flatMap_cons]
  refine String.toList_inj.1 ?_
  rw [h.text, hjoin]
  simp [tag, WrittenTag.chars, WrittenTag.front]

variable {token : Token} {parent scope : NamespaceScope} {start : StartTag}

theorem written_of_resolveAttribute {a : AttributeToken} {b : Attribute}
    (h : resolveAttribute scope a = .ok b) : b.written = a.written := by
  obtain ⟨name, -, h⟩ := bind_eq_ok.1 h
  cases h
  rfl

/-- A start tag is read off a tag token without loss. -/
theorem isRead_of_startTag {t : WrittenTag} (ht : t.IsStart) (hchars : token.text.toList = t.chars)
    (htag : token.tag? = some t) (h : startTag token parent = .ok (start, scope)) : start.IsRead := by
  have hclose : token.tagClose = String.ofList t.close := by
    rw [Token.tagClose, htag]
    rfl
  have hname : token.tagName? = some (token.part ['<'] t.name) := by
    rw [Token.tagName?, htag, Option.map_some, ht.ending]
    rfl
  unfold startTag at h
  rw [hname] at h
  obtain ⟨attributes, ha, h⟩ := bind_eq_ok.1 h
  obtain ⟨name, -, h⟩ := bind_eq_ok.1 h
  cases h
  have hwritten : attributes.map Attribute.written = t.attributes := by
    rw [map_of_mapM ha fun a b => written_of_resolveAttribute, Token.written_attributes htag]
  -- put together again, the parts are the tag that was taken off
  have heq : StartTag.tag ⟨name, (token.part ['<'] t.name).text, attributes, token.tagClose, token.text,
      token.kind == .emptyTag, token.location⟩ = t := by
    obtain ⟨ending, tagName, as, close⟩ := t
    obtain rfl : ending = false := ht.ending
    dsimp only at hwritten hclose
    rw [StartTag.tag]
    dsimp only
    rw [hwritten, hclose]
    simp [Token.part]
  constructor
  · rwa [heq]
  · rwa [heq]
  · intro b hb hv
    obtain ⟨a, ha, hab⟩ := mem_of_mapM_ok ha hb
    obtain ⟨_, -, hab⟩ := bind_eq_ok.1 hab
    cases hab
    exact Token.valueless_of_mem ha (Option.map_eq_none_iff.1 hv)

namespace Builder

variable {b b' : Builder}

theorem isRead_step (h : b.step token = .ok b') {source : String} {filename : Option String}
    (ht : token ∈ Token.scan source filename) (hb : ∀ start ∈ Node.tagsAll b.nodes, start.IsRead) :
    ∀ start ∈ Node.tagsAll b'.nodes, start.IsRead := by
  rcases tags_step h with ⟨ho, start, scope, hs, htags⟩ | ⟨-, htags⟩
  · obtain ⟨t, hstart, hchars, htag⟩ := Token.isTag_of_mem_scan ht ho
    have hread := isRead_of_startTag hstart hchars htag hs
    intro other hother
    rw [htags] at hother
    rcases List.mem_append.1 hother with hother | hother
    · exact hb other hother
    · rw [List.mem_singleton.1 hother]
      exact hread
  · rwa [htags]

end Builder

namespace Document

variable {source : String} {filename : Option String} {document : Document}

/-- The start tags of a tree are read without loss. -/
theorem isRead_of_parse (h : parse source filename = .ok document) :
    ∀ start ∈ Node.tagsAll document.nodes, start.IsRead := by
  obtain ⟨b, hb, rfl⟩ := parse_ok h
  exact foldlM_keeps (P := fun b => ∀ start ∈ Node.tagsAll (Builder.nodes b), start.IsRead)
    (fun token ht b c hb hc => Builder.isRead_step hc ht hb) (List.forall_mem_nil _) hb

end Document

end MarkupTemplate
