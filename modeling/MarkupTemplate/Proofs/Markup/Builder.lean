import Mathlib.Data.List.TakeWhile
import MarkupTemplate.Markup.Document
import MarkupTemplate.Proofs.Markup.Tokens
import MarkupTemplate.Proofs.Results

/-!
# What the tree builder does with a token

`Builder.step_cases` says once what a token that is taken does to the builder; an end tag cuts the working
list at the place of the start tag that it closes, and all entries behind that place become children. No
entry is lost on the way, so the sources of the entries grow by the token's text (`Builder.source_step`),
and a tree that is written back is what was parsed (`Document.source_of_parse`).
-/

namespace MarkupTemplate

variable {token : Token} {parent scope : NamespaceScope} {start : StartTag}

theorem startTag_ok (h : startTag token parent = .ok (start, scope)) :
    start.text = token.text ∧ scope = openedScope parent token.attributes ∧
      token.attributes.mapM (resolveAttribute scope) = .ok start.attributes ∧
      ∃ rawName, token.tagName? = some rawName ∧ resolveName scope rawName = .ok start.name := by
  unfold startTag at h
  cases hn : token.tagName? with
  | none => rw [hn] at h; cases h
  | some rawName =>
    rw [hn] at h
    obtain ⟨attributes, ha, h⟩ := bind_eq_ok.1 h
    obtain ⟨name, hr, h⟩ := bind_eq_ok.1 h
    cases h
    exact ⟨rfl, rfl, ha, rawName, rfl, hr⟩

namespace Builder

variable {b b' : Builder}

/-- What a token does to the builder. The end tag passes over the open start tags `passed` and closes
`start`, behind which the entries `inside` stand. -/
inductive Steps (b : Builder) (token : Token) : Builder → Prop
  | opened {start : StartTag} {scope : NamespaceScope} (hk : token.kind = .startTag)
      (hs : startTag token b.scope = .ok (start, scope)) : Steps b token (b.openTag start scope)
  | empty {start : StartTag} {scope : NamespaceScope} (hk : token.kind = .emptyTag)
      (hs : startTag token b.scope = .ok (start, scope)) :
      Steps b token (b.add (.element start [] none))
  | closed {scope outer : NamespaceScope} {outermost : List NamespaceScope} {rawName : Token} {name : QName}
      {passed openTags : List (QName × Nat)} {position : Nat} {inside before : List Entry}
      {start : StartTag} (hk : token.kind = .endTag) (hscopes : b.scopes = scope :: outer :: outermost)
      (hraw : token.tagName? = some rawName) (hname : resolveName scope rawName = .ok name)
      (hopen : b.openTags = passed ++ (name, position) :: openTags)
      (hpassed : ∀ p ∈ passed, p.1 ≠ name)
      (hentries : b.entries = inside ++ .openTag start :: before)
      (hinside : inside.length = b.entries.length - (position + 1)) :
      Steps b token {
        entries := .node (.element start (inside.reverse.map Entry.toNode)
          (some ⟨name, rawName.text, token.text, token.location⟩)) :: before
        openTags
        scopes := (outer :: outermost).drop (outermost.length + 1 - (openTags.length + 1)) }
  | plain (kind : MarkupKind) (hs : token.kind ≠ .startTag) (he : token.kind ≠ .emptyTag)
      (hc : token.kind ≠ .endTag) : Steps b token (b.add (.markup kind token.text token.location))

theorem closeTag_cases (hk : token.kind = .endTag) (h : b.closeTag token = .ok b') :
    b.Steps token b' := by
  unfold closeTag at h
  dsimp only at h
  split at h
  · rename_i scope outer outermost hscopes
    split at h
    · cases h
    · rename_i rawName hraw
      obtain ⟨name, hname, h⟩ := bind_eq_ok.1 h
      have hpass := List.takeWhile_append_dropWhile (p := fun p : QName × Nat => p.1 != name)
        (l := b.openTags)
      have hpassed : ∀ p ∈ b.openTags.takeWhile (fun p => p.1 != name), p.1 ≠ name := fun p hp => by
        simpa using List.mem_takeWhile_imp hp
      split at h
      · cases h
      · rename_i found position openTags hfound
        obtain rfl : found = name := by
          have hhead := List.head?_dropWhile_not (fun p : QName × Nat => p.1 != name) b.openTags
          rw [hfound] at hhead
          simpa using hhead
        rw [hfound] at hpass
        split at h
        · rename_i start before hbefore
          cases h
          refine .closed hk hscopes hraw hname hpass.symm hpassed ?_ ?_
          · rw [← hbefore, List.take_append_drop]
          · rw [List.length_take, Nat.min_eq_left (Nat.sub_le ..)]
        · cases h
  · cases h

theorem step_cases (h : b.step token = .ok b') : b.Steps token b' := by
  unfold step at h
  cases hk : token.kind with
  | startTag =>
    rw [hk] at h
    obtain ⟨⟨start, scope⟩, hs, h⟩ := bind_eq_ok.1 h
    cases h
    exact .opened hk hs
  | emptyTag =>
    rw [hk] at h
    obtain ⟨⟨start, scope⟩, hs, h⟩ := bind_eq_ok.1 h
    cases h
    exact .empty hk hs
  | endTag =>
    rw [hk] at h
    exact closeTag_cases hk h
  | malformed => rw [hk] at h; cases h
  | text | comment | cdata | declaration | xmlDeclaration | instruction =>
    rw [hk] at h
    cases h
    exact .plain _ (by rw [hk]; exact nofun) (by rw [hk]; exact nofun) (by rw [hk]; exact nofun)

/-! ### The nodes after a token -/

theorem nodes_add (b : Builder) (n : Node) : (b.add n).nodes = b.nodes ++ [n] := by
  simp only [nodes, add, List.reverse_cons, List.map_append, List.map_cons, List.map_nil, Entry.toNode]

theorem nodes_openTag (b : Builder) (start : StartTag) (scope : NamespaceScope) :
    (b.openTag start scope).nodes = b.nodes ++ [.element start [] none] := by
  simp only [nodes, openTag, List.reverse_cons, List.map_append, List.map_cons, List.map_nil,
    Entry.toNode]

theorem nodes_closed (n : Node) (before : List Entry) (openTags : List (QName × Nat))
    (scopes : List NamespaceScope) :
    nodes ⟨.node n :: before, openTags, scopes⟩ = before.reverse.map Entry.toNode ++ [n] := by
  simp only [nodes, List.reverse_cons, List.map_append, List.map_cons, List.map_nil, Entry.toNode]

/-- The nodes of a working list that is cut at an open start tag. -/
theorem nodes_of_entries {inside before : List Entry}
    (h : b.entries = inside ++ .openTag start :: before) :
    b.nodes = before.reverse.map Entry.toNode ++
      .element start [] none :: inside.reverse.map Entry.toNode := by
  rw [nodes, h]
  simp only [List.reverse_append, List.reverse_cons, List.append_assoc, List.map_append, List.map_cons,
    Entry.toNode, List.singleton_append]

end Builder

/-! ### Writing a tree back -/

theorem Node.sourceAll_append (nodes more : List Node) :
    sourceAll (nodes ++ more) = sourceAll nodes ++ sourceAll more := by
  induction nodes with
  | nil => rw [List.nil_append, sourceAll, String.empty_append]
  | cons node nodes ih => rw [List.cons_append, sourceAll, sourceAll, ih, String.append_assoc]

theorem Node.sourceAll_singleton (n : Node) : sourceAll [n] = n.source := by
  rw [sourceAll, sourceAll, String.append_empty]

theorem Node.source_element (start : StartTag) (children : List Node) (closing : Option EndTag) :
    (element start children closing).source =
      start.text ++ sourceAll children ++ (closing.map EndTag.text).getD "" := by
  rw [source]

namespace Builder

variable {b b' : Builder}

theorem source_step (h : b.step token = .ok b') :
    Node.sourceAll b'.nodes = Node.sourceAll b.nodes ++ token.text := by
  -- a tag without children and without an end is its own text
  have hleaf {start : StartTag} {scope : NamespaceScope}
      (hs : startTag token b.scope = .ok (start, scope)) :
      (Node.element start [] none).source = token.text := by
    rw [Node.source_element, (startTag_ok hs).1, Node.sourceAll, String.append_empty]
    exact String.append_empty
  cases step_cases h with
  | opened _ hs => rw [nodes_openTag, Node.sourceAll_append, Node.sourceAll_singleton, hleaf hs]
  | empty _ hs => rw [nodes_add, Node.sourceAll_append, Node.sourceAll_singleton, hleaf hs]
  | @closed _ _ _ rawName name _ openTags _ inside before start _ _ _ _ _ _ hentries =>
    have hopen : (Node.element start [] none).source = start.text := by
      rw [Node.source_element, Node.sourceAll, String.append_empty]
      exact String.append_empty
    rw [nodes_closed, nodes_of_entries hentries, Node.sourceAll_append, Node.sourceAll_append,
      Node.sourceAll_singleton, Node.source_element, Node.sourceAll, hopen]
    simp only [String.append_assoc]
    rfl
  | plain kind =>
    rw [nodes_add, Node.sourceAll_append, Node.sourceAll_singleton, Node.source]

theorem source_run {tokens : List Token} (h : tokens.foldlM step b = .ok b') :
    Node.sourceAll b'.nodes = Node.sourceAll b.nodes ++ String.join (tokens.map Token.text) := by
  induction tokens generalizing b with
  | nil =>
    cases h
    exact String.append_empty.symm
  | cons token tokens ih =>
    rw [List.foldlM_cons] at h
    obtain ⟨c, hc, h⟩ := bind_eq_ok.1 h
    rw [ih h, source_step hc, List.map_cons, String.join_cons, String.append_assoc]

end Builder

namespace Document

variable {source : String} {filename : Option String} {document : Document}

theorem parse_ok (h : parse source filename = .ok document) :
    ∃ b, (Token.scan source filename).foldlM Builder.step .initial = .ok b ∧
      document = ⟨b.nodes, filename⟩ := by
  obtain ⟨b, hb, h⟩ := bind_eq_ok.1 h
  cases h
  exact ⟨b, hb, rfl⟩

/-- Parsing loses nothing. -/
theorem source_of_parse (h : parse source filename = .ok document) : document.source = source := by
  obtain ⟨b, hb, rfl⟩ := parse_ok h
  have hrun := Builder.source_run hb
  have hcover := (Tokenizer.cover_ofSource .markup source filename).join
  rw [Document.source, hrun]
  show "" ++ String.join ((Token.scan source filename).map Token.text) = source
  rw [String.empty_append]
  exact hcover

/-- An end tag passes over two start tags, another start tag is never closed, and markup of every kind
stands between them. -/
def interleaved : String :=
  "<?xml version='1.0'?>\n<!DOCTYPE p><ul class=\"x\"><li>a<br>é<!-- <b> --><![CDATA[</ul>]]></ul >" ++
    "<?go?><hr/><i> 1 < 2\n"

theorem source_of_parse_interleaved : ∃ document, parse interleaved none = .ok document ∧
    document.source = interleaved := by
  have hd : (parse interleaved none).toOption.isSome := by decide +kernel
  cases hp : parse interleaved none with
  | error fault => rw [hp] at hd; cases hd
  | ok document => exact ⟨document, rfl, source_of_parse hp⟩

end Document

end MarkupTemplate
