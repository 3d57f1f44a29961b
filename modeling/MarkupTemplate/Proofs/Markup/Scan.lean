import MarkupTemplate.Proofs.Markup.Builder

/-!
# The scan for attributes beside the tree builder

The scan keeps its own stack of scopes and leaves one scope at each end tag, where the builder leaves the
scopes of every start tag that the end tag passes over. Scan and builder are in step (`InStep`) if their
innermost scopes agree whenever a start tag is read; then the scan lists the attributes of the tree's start
tags in document order (`scanAttributes_of_inStep`). They are in step where no start tag declares a
namespace (`inStep_of_undeclared`), and where each end tag closes the innermost open start tag
(`inStep_of_nested`).
-/

namespace MarkupTemplate

/-! ### Scopes that bind alike -/

namespace NamespaceScope

variable {s t : NamespaceScope}

/-- The scopes bind the same prefixes to the same namespaces. -/
def Agrees (s t : NamespaceScope) : Prop :=
  ∀ name, s.lookup name = t.lookup name

theorem Agrees.refl (s : NamespaceScope) : s.Agrees s := fun _ => rfl

theorem Agrees.bind (h : s.Agrees t) (name space : String) :
    (s.bind name space).Agrees (t.bind name space) := by
  intro other
  have hs := h other
  unfold lookup at hs
  simp only [lookup, NamespaceScope.bind, List.lookup_cons, hs]

theorem Agrees.declare (h : s.Agrees t) (written : String × String) :
    (s.declare written).Agrees (t.declare written) := by
  unfold NamespaceScope.declare
  split
  · exact h.bind _ _
  · exact h

theorem Agrees.child (h : s.Agrees t) (attributes : List (String × String)) :
    (s.child attributes).Agrees (t.child attributes) := by
  unfold NamespaceScope.child
  induction attributes generalizing s t with
  | nil => exact h
  | cons written attributes ih => exact ih (h.declare written)

theorem Agrees.resolve (h : s.Agrees t) (name : String) : s.resolve name = t.resolve name := by
  unfold NamespaceScope.resolve default?
  simp only [h _]

/-- A scope that nothing is declared in is its parent's. -/
theorem child_of_undeclared {attributes : List (String × String)}
    (h : ∀ written ∈ attributes, declared? written.1 = none) : s.child attributes = s := by
  induction attributes with
  | nil => rfl
  | cons written attributes ih =>
    obtain ⟨hw, hs⟩ := List.forall_mem_cons.1 h
    show (s.declare written).child attributes = s
    rw [NamespaceScope.declare, hw]
    exact ih hs

end NamespaceScope

variable {token : Token} {parent other scope : NamespaceScope} {start : StartTag}

theorem resolveName_of_agrees (h : parent.Agrees other) (name : Token) :
    resolveName parent name = resolveName other name := by
  rw [resolveName, resolveName, h.resolve]

theorem resolveAttribute_of_agrees (h : parent.Agrees other) :
    resolveAttribute parent = resolveAttribute other := by
  funext a
  rw [resolveAttribute, resolveAttribute, resolveName_of_agrees h]

/-- A start tag is the same in scopes that bind alike. -/
theorem startTag_of_agrees (h : parent.Agrees other) (hs : startTag token parent = .ok (start, scope)) :
    ∃ opened, startTag token other = .ok (start, opened) := by
  unfold startTag at hs ⊢
  cases hn : token.tagName? with
  | none => rw [hn] at hs; cases hs
  | some rawName =>
    rw [hn] at hs
    have hchild : (openedScope parent token.attributes).Agrees (openedScope other token.attributes) :=
      h.child _
    dsimp only at hs ⊢
    rw [resolveAttribute_of_agrees hchild, resolveName_of_agrees hchild] at hs
    obtain ⟨attributes, ha, hs⟩ := bind_eq_ok.1 hs
    obtain ⟨name, hr, hs⟩ := bind_eq_ok.1 hs
    cases hs
    exact ⟨_, bind_eq_ok.2 ⟨attributes, ha, bind_eq_ok.2 ⟨name, hr, rfl⟩⟩⟩

/-! ### The start tags of a tree -/

namespace Node

mutual

/-- The start tags of a node, in document order. -/
def tags : Node → List StartTag
  | markup .. => []
  | element start children _ => start :: tagsAll children

/-- The start tags of nodes, in document order. -/
def tagsAll : List Node → List StartTag
  | [] => []
  | node :: nodes => node.tags ++ tagsAll nodes

end

theorem tagsAll_append (nodes more : List Node) : tagsAll (nodes ++ more) = tagsAll nodes ++ tagsAll more := by
  induction nodes with
  | nil => rw [List.nil_append, tagsAll, List.nil_append]
  | cons node nodes ih => rw [List.cons_append, tagsAll, tagsAll, ih, List.append_assoc]

theorem tagsAll_singleton (n : Node) : tagsAll [n] = n.tags := by
  rw [tagsAll, tagsAll, List.append_nil]

theorem tags_element (start : StartTag) (children : List Node) (closing : Option EndTag) :
    (element start children closing).tags = start :: tagsAll children := by
  rw [tags]

end Node

/-- A token that the builder and the scan read a start tag from. -/
def TokenKind.OpensTag (kind : TokenKind) : Prop :=
  kind = .startTag ∨ kind = .emptyTag

namespace Builder

variable {b b' : Builder}

/-- A token adds one start tag to the tree behind all others, or none. -/
theorem tags_step (h : b.step token = .ok b') :
    (token.kind.OpensTag ∧ ∃ start scope, startTag token b.scope = .ok (start, scope) ∧
        Node.tagsAll b'.nodes = Node.tagsAll b.nodes ++ [start]) ∨
      ¬token.kind.OpensTag ∧ Node.tagsAll b'.nodes = Node.tagsAll b.nodes := by
  have hleaf (start : StartTag) : Node.tagsAll [.element start [] none] = [start] := by
    rw [Node.tagsAll_singleton, Node.tags_element, Node.tagsAll]
  cases step_cases h with
  | @opened start scope hk hs =>
    exact .inl ⟨.inl hk, start, scope, hs, by rw [nodes_openTag, Node.tagsAll_append, hleaf]⟩
  | @empty start scope hk hs =>
    exact .inl ⟨.inr hk, start, scope, hs, by rw [nodes_add, Node.tagsAll_append, hleaf]⟩
  | @closed _ _ _ _ _ _ _ _ inside before start hk _ _ _ _ _ hentries =>
    refine .inr ⟨?_, ?_⟩
    · rintro (h | h) <;> rw [hk] at h <;> cases h
    · rw [nodes_closed, nodes_of_entries hentries, Node.tagsAll_append, Node.tagsAll_append,
        Node.tagsAll_singleton, Node.tags_element, Node.tagsAll, Node.tags_element, Node.tagsAll]
      rfl
  | plain _ hs he =>
    refine .inr ⟨?_, ?_⟩
    · rintro (h | h)
      · exact hs h
      · exact he h
    · rw [nodes_add, Node.tagsAll_append, Node.tagsAll_singleton, Node.tags, List.append_nil]

end Builder

/-! ### Scan and builder in step -/

/-- The scopes that the scan is in, the innermost first, and the attributes it has found. -/
abbrev ScanState := List NamespaceScope × List ScannedAttribute

/-- The scope in which the scan reads a start tag. -/
def scanScope (state : ScanState) : NamespaceScope :=
  state.1.head?.getD .root

/-- Through these tokens, the scan reads each start tag in a scope that binds like the builder's. -/
def InStepFrom (b : Builder) (state : ScanState) : List Token → Prop
  | [] => True
  | token :: tokens =>
    (token.kind.OpensTag → b.scope.Agrees (scanScope state)) ∧
      ∀ b' state', b.step token = .ok b' → scanStep state token = .ok state' →
        InStepFrom b' state' tokens

/-- Scan and builder are in step through the whole of a source. -/
def InStep (source : String) (filename : Option String) : Prop :=
  InStepFrom .initial ([.root], []) (Token.scan source filename)

variable {state state' : ScanState} {b b' : Builder} {tokens : List Token}

theorem scanStep_opens (hk : token.kind.OpensTag)
    (hs : startTag token (scanScope state) = .ok (start, scope)) :
    ∃ scopes, scanStep state token = .ok (scopes, state.2 ++ start.scanned) := by
  unfold scanStep
  rcases hk with hk | hk <;> rw [hk] <;> exact ⟨_, bind_eq_ok.2 ⟨_, hs, rfl⟩⟩

theorem scanStep_passes (state : ScanState) (hk : ¬token.kind.OpensTag) :
    ∃ scopes, scanStep state token = .ok (scopes, state.2) := by
  unfold scanStep
  split
  · rename_i h; exact absurd (.inl h) hk
  · rename_i h; exact absurd (.inr h) hk
  · exact ⟨_, rfl⟩
  · exact ⟨_, rfl⟩

/-- The attributes of the tree's start tags are what the scan has found. -/
def Listed (b : Builder) (state : ScanState) : Prop :=
  state.2 = (Node.tagsAll b.nodes).flatMap StartTag.scanned

theorem listed_step (hl : Listed b state) (ha : token.kind.OpensTag → b.scope.Agrees (scanScope state))
    (hb : b.step token = .ok b') : ∃ state', scanStep state token = .ok state' ∧ Listed b' state' := by
  obtain ⟨hk, start, scope, hs, htags⟩ | ⟨hk, htags⟩ := Builder.tags_step hb
  · obtain ⟨opened, hs⟩ := startTag_of_agrees (ha hk) hs
    obtain ⟨scopes, hscan⟩ := scanStep_opens hk hs
    refine ⟨_, hscan, ?_⟩
    show state.2 ++ start.scanned = _
    rw [htags, List.flatMap_append, List.flatMap_singleton, hl]
  · obtain ⟨scopes, hscan⟩ := scanStep_passes state hk
    refine ⟨_, hscan, ?_⟩
    show state.2 = _
    rw [htags, hl]

theorem listed_run (hs : InStepFrom b state tokens) (hl : Listed b state)
    (hb : tokens.foldlM Builder.step b = .ok b') :
    ∃ state', tokens.foldlM scanStep state = .ok state' ∧ Listed b' state' := by
  induction tokens generalizing b state with
  | nil =>
    cases hb
    exact ⟨state, rfl, hl⟩
  | cons token tokens ih =>
    obtain ⟨ha, hnext⟩ := hs
    rw [List.foldlM_cons] at hb
    obtain ⟨c, hc, hb⟩ := bind_eq_ok.1 hb
    obtain ⟨next, hn, hl⟩ := listed_step hl ha hc
    obtain ⟨last, hlast, hl⟩ := ih (hnext c next hc hn) hl hb
    exact ⟨last, by rw [List.foldlM_cons]; exact bind_eq_ok.2 ⟨next, hn, hlast⟩, hl⟩

variable {source : String} {filename : Option String} {document : Document}

/-- The scan finds the attributes of the tree. -/
theorem scanAttributes_of_inStep (hs : InStep source filename)
    (hd : Document.parse source filename = .ok document) :
    scanAttributes source filename =
      .ok ((Node.tagsAll document.nodes).flatMap StartTag.scanned) := by
  obtain ⟨b, hb, rfl⟩ := Document.parse_ok hd
  have hl : Listed .initial ([.root], []) := by
    show [] = (Node.tagsAll []).flatMap StartTag.scanned
    rw [Node.tagsAll, List.flatMap_nil]
  obtain ⟨state, hscan, hl⟩ := listed_run hs hl hb
  refine bind_eq_ok.2 ⟨state, hscan, ?_⟩
  show Except.ok state.2 = _
  rw [hl]

/-! ### Sources without declarations -/

/-- An attribute of the tag declares a namespace. -/
def Token.declares (t : Token) : Bool :=
  t.attributes.any fun a => (NamespaceScope.declared? a.name.text).isSome

theorem openedScope_of_undeclared (h : token.declares = false) :
    openedScope parent token.attributes = parent := by
  apply NamespaceScope.child_of_undeclared
  intro written hw
  obtain ⟨a, ha, rfl⟩ := List.mem_map.1 hw
  have := List.any_eq_false.1 h a ha
  simpa using this

/-- The scope of a builder or a scan that has met no declaration. -/
def OnlyRoot (scopes : List NamespaceScope) : Prop :=
  ∀ scope ∈ scopes, scope = .root

theorem OnlyRoot.innermost {scopes : List NamespaceScope} (h : OnlyRoot scopes) :
    scopes.head?.getD .root = .root := by
  cases scopes with
  | nil => rfl
  | cons scope scopes => exact h scope List.mem_cons_self

theorem OnlyRoot.of_sublist {scopes fewer : List NamespaceScope} (h : OnlyRoot scopes)
    (hf : fewer.Sublist scopes) : OnlyRoot fewer :=
  fun scope hscope => h scope (hf.subset hscope)

theorem Builder.onlyRoot_step (hu : token.kind = .startTag → token.declares = false)
    (h : OnlyRoot b.scopes) (hb : b.step token = .ok b') : OnlyRoot b'.scopes := by
  cases Builder.step_cases hb with
  | @opened start scope hk hs =>
    have hroot : scope = .root := by
      rw [(startTag_ok hs).2.1, openedScope_of_undeclared (hu hk)]
      exact h.innermost
    exact List.forall_mem_cons.2 ⟨hroot, h⟩
  | empty => exact h
  | closed _ hscopes =>
    rw [hscopes] at h
    exact h.of_sublist ((List.drop_sublist ..).trans (List.sublist_cons_self ..))
  | plain => exact h

theorem onlyRoot_scanStep (hu : token.kind = .startTag → token.declares = false)
    (h : OnlyRoot state.1) (hs : scanStep state token = .ok state') : OnlyRoot state'.1 := by
  unfold scanStep at hs
  split at hs
  · rename_i hk
    obtain ⟨⟨start, scope⟩, hstart, hs⟩ := bind_eq_ok.1 hs
    cases hs
    have hroot : scope = .root := by
      rw [(startTag_ok hstart).2.1, openedScope_of_undeclared (hu hk)]
      exact h.innermost
    exact List.forall_mem_cons.2 ⟨hroot, h⟩
  · obtain ⟨⟨start, scope⟩, -, hs⟩ := bind_eq_ok.1 hs
    cases hs
    exact h
  · cases hs
    dsimp only
    split
    · exact h.of_sublist (List.tail_sublist _)
    · exact h
  · cases hs
    exact h

theorem inStepFrom_of_undeclared (hu : ∀ t ∈ tokens, t.kind = .startTag → t.declares = false)
    (hb : OnlyRoot b.scopes) (hs : OnlyRoot state.1) : InStepFrom b state tokens := by
  induction tokens generalizing b state with
  | nil => trivial
  | cons token tokens ih =>
    obtain ⟨ht, hu⟩ := List.forall_mem_cons.1 hu
    constructor
    · intro _
      rw [Builder.scope, scanScope, hb.innermost, hs.innermost]
      exact .refl _
    · intro b' state' hb' hs'
      exact ih hu (Builder.onlyRoot_step ht hb hb') (onlyRoot_scanStep ht hs hs')

/-- Without declarations there is but one scope. -/
theorem inStep_of_undeclared
    (h : ∀ t ∈ Token.scan source filename, t.kind = .startTag → t.declares = false) :
    InStep source filename :=
  inStepFrom_of_undeclared h (fun _ => List.mem_singleton.1) (fun _ => List.mem_singleton.1)

/-! ### Sources whose tags are nested -/

/-- Through these tokens, each end tag closes the innermost open start tag. -/
def NestedFrom (b : Builder) : List Token → Prop
  | [] => True
  | token :: tokens =>
    ∀ b', b.step token = .ok b' →
      (token.kind = .endTag → b'.openTags = b.openTags.tail) ∧ NestedFrom b' tokens

/-- Each end tag of a source closes the innermost open start tag. -/
def Nested (source : String) (filename : Option String) : Prop :=
  NestedFrom .initial (Token.scan source filename)

/-- There is a scope for each open start tag, and the one around the document. -/
theorem Builder.scopes_step (h : b.scopes.length = b.openTags.length + 1) (hb : b.step token = .ok b') :
    b'.scopes.length = b'.openTags.length + 1 := by
  cases Builder.step_cases hb with
  | opened => simpa [Builder.openTag] using h
  | empty => exact h
  | closed _ hscopes _ _ hopen =>
    rw [hscopes, hopen] at h
    simp only [List.length_cons, List.length_append, List.length_drop] at h ⊢
    omega
  | plain => exact h

/-- Scan and builder hold the same scopes. -/
theorem scanStep_nested (hlen : b.scopes.length = b.openTags.length + 1)
    (hn : token.kind = .endTag → b'.openTags = b.openTags.tail) (heq : state.1 = b.scopes)
    (hb : b.step token = .ok b') (hs : scanStep state token = .ok state') : state'.1 = b'.scopes := by
  have hscope : state.1.head?.getD .root = b.scope := by rw [heq, Builder.scope]
  unfold scanStep at hs
  cases Builder.step_cases hb with
  | opened hk hstart =>
    simp only [hk, hscope] at hs
    obtain ⟨p, hp, hs⟩ := bind_eq_ok.1 hs
    rw [hstart] at hp
    cases hp
    cases hs
    exact congrArg (_ :: ·) heq
  | empty hk hstart =>
    simp only [hk] at hs
    obtain ⟨p, -, hs⟩ := bind_eq_ok.1 hs
    cases hs
    exact heq
  | @closed _ _ outermost _ _ _ openTags _ _ _ _ hk hscopes _ _ hopen =>
    simp only [hk] at hs
    cases hs
    have htail := congrArg List.length (hn hk)
    rw [hscopes] at hlen heq
    rw [hopen] at htail hlen
    simp only [List.length_cons, List.length_append, List.length_tail] at hlen htail
    rw [heq, if_pos (by simp), List.tail_cons]
    rw [show outermost.length + 1 - (openTags.length + 1) = 0 by omega, List.drop_zero]
  | plain _ hk he hc =>
    split at hs
    · rename_i h; exact absurd h hk
    · rename_i h; exact absurd h he
    · rename_i h; exact absurd h hc
    · cases hs
      exact heq

theorem inStepFrom_of_nested (h : NestedFrom b tokens) (hlen : b.scopes.length = b.openTags.length + 1)
    (heq : state.1 = b.scopes) : InStepFrom b state tokens := by
  induction tokens generalizing b state with
  | nil => trivial
  | cons token tokens ih =>
    constructor
    · intro _
      rw [Builder.scope, scanScope, heq]
      exact .refl _
    · intro b' state' hb hs
      obtain ⟨hn, hrest⟩ := h b' hb
      exact ih hrest (Builder.scopes_step hlen hb) (scanStep_nested hlen hn heq hb hs)

theorem inStep_of_nested (h : Nested source filename) : InStep source filename :=
  inStepFrom_of_nested h rfl rfl

end MarkupTemplate
