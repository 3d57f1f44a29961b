import MarkupTemplate.Proofs.Markup.Scan

/-!
# The scopes of a tree

The builder resolves a name in the scope of the start tags that are open when it is read. Some of them
never get an end tag and are elements without children in the end, so what they declare reaches the
siblings behind them and the end tag of their parent. `Node.Stands` says which start tags are open where
an element of a tree begins. Its names resolve in exactly their scope (`Document.names_of_parse`), and so
in the scope of its ancestors where every element that declares a namespace has an end; elsewhere they
need not (`Document.not_isLexical_strayDeclaration`).

The invariant ties the builder's two stacks to its working list (`Builder.Stacked`); an end tag cuts all
three at the place of the start tag that it closes (`Builder.Stacked.cut`).
-/

namespace MarkupTemplate

/-! ### Scopes inside start tags -/

def StartTag.DeclaresNothing (start : StartTag) : Prop :=
  ∀ a ∈ start.attributes, NamespaceScope.declared? a.rawName = none

namespace NamespaceScope

variable {scope : NamespaceScope} {start : StartTag}

def inside (scope : NamespaceScope) (start : StartTag) : NamespaceScope :=
  scope.child (start.attributes.map fun a => (a.rawName, a.value.getD ""))

/-- The scope inside start tags, the outermost first. -/
def within (scope : NamespaceScope) (starts : List StartTag) : NamespaceScope :=
  starts.foldl inside scope

theorem within_append (scope : NamespaceScope) (starts more : List StartTag) :
    scope.within (starts ++ more) = (scope.within starts).within more :=
  List.foldl_append

theorem inside_of_declaresNothing (h : start.DeclaresNothing) : scope.inside start = scope := by
  apply child_of_undeclared
  intro written hw
  obtain ⟨a, ha, rfl⟩ := List.mem_map.1 hw
  exact h a ha

theorem within_of_declareNothing {starts : List StartTag} (h : ∀ start ∈ starts, start.DeclaresNothing) :
    scope.within starts = scope := by
  induction starts with
  | nil => rfl
  | cons start starts ih =>
    obtain ⟨hstart, hstarts⟩ := List.forall_mem_cons.1 h
    show (scope.inside start).within starts = scope
    rw [inside_of_declaresNothing hstart, ih hstarts]

end NamespaceScope

/-! ### Where an element stands -/

namespace Node

/-- The start tag of an element that neither closes itself nor has an end tag. -/
def unclosed? : Node → Option StartTag
  | element start _ none => if start.selfClosing then none else some start
  | _ => none

/-- The start tags among nodes that are left without an end tag. -/
def unclosed (nodes : List Node) : List StartTag :=
  nodes.filterMap unclosed?

theorem unclosed_append (nodes more : List Node) : unclosed (nodes ++ more) = unclosed nodes ++ unclosed more :=
  List.filterMap_append

theorem unclosed_cons (n : Node) (nodes : List Node) :
    unclosed (n :: nodes) = n.unclosed?.toList ++ unclosed nodes := by
  unfold unclosed
  rw [List.filterMap_cons]
  cases n.unclosed? <;> rfl

/-- An element stands among nodes, inside the elements `ancestors`. The start tags `opens` are open where it
begins: its ancestors and, before it and before each of them, the siblings that are left without an end tag.
Both lists begin with the outermost. -/
inductive Stands (start : StartTag) (children : List Node) (closing : Option EndTag) :
    List Node → (ancestors opens : List StartTag) → Prop
  | first {nodes : List Node} : Stands start children closing (element start children closing :: nodes) [] []
  | inside {outer : StartTag} {inner nodes : List Node} {outerClosing : Option EndTag}
      {ancestors opens : List StartTag} (h : Stands start children closing inner ancestors opens) :
      Stands start children closing (element outer inner outerClosing :: nodes) (outer :: ancestors)
        (outer :: opens)
  | behind {n : Node} {nodes : List Node} {ancestors opens : List StartTag}
      (h : Stands start children closing nodes ancestors opens) :
      Stands start children closing (n :: nodes) ancestors (n.unclosed?.toList ++ opens)

/-- Every element among nodes that declares a namespace closes itself or has an end tag. -/
def DeclarersClosed (nodes : List Node) : Prop :=
  ∀ start children ancestors opens, Stands start children none nodes ancestors opens →
    start.selfClosing = false → start.DeclaresNothing

end Node

/-- The names of an element resolve in one scope, that of its end tag in another. -/
structure NamesResolve (scope last : NamespaceScope) (start : StartTag) (closing : Option EndTag) : Prop where
  tag : scope.resolve start.rawName = .ok start.name
  attributes : ∀ a ∈ start.attributes, scope.resolve a.rawName = .ok a.name
  closing : ∀ e ∈ closing, last.resolve e.rawName = .ok e.name

namespace Document

/-- All names resolve in the scope of the elements around them. -/
def IsLexical (d : Document) : Prop :=
  ∀ start children closing ancestors opens, Node.Stands start children closing d.nodes ancestors opens →
    NamesResolve (NamespaceScope.root.within (ancestors ++ [start]))
      (NamespaceScope.root.within (ancestors ++ [start])) start closing

end Document

/-! ### Names of nodes -/

namespace Node

mutual

/-- The names of a node that begins in a scope resolve where they stand. -/
def ResolvesIn (scope : NamespaceScope) : Node → Prop
  | markup .. => True
  | element start children closing =>
    NamesResolve (scope.inside start) ((scope.inside start).within (unclosed children)) start closing ∧
      AllResolveIn (scope.inside start) children

def AllResolveIn (scope : NamespaceScope) : List Node → Prop
  | [] => True
  | n :: nodes => n.ResolvesIn scope ∧ AllResolveIn (scope.within n.unclosed?.toList) nodes

end

variable {scope : NamespaceScope} {start : StartTag} {children nodes more : List Node}
  {closing : Option EndTag} {ancestors opens : List StartTag}

theorem resolvesIn_element : (element start children closing).ResolvesIn scope ↔
    NamesResolve (scope.inside start) ((scope.inside start).within (unclosed children)) start closing ∧
      AllResolveIn (scope.inside start) children := by
  rw [ResolvesIn]

theorem allResolveIn_cons {n : Node} : AllResolveIn scope (n :: nodes) ↔
    n.ResolvesIn scope ∧ AllResolveIn (scope.within n.unclosed?.toList) nodes := by
  rw [AllResolveIn]

theorem allResolveIn_append : AllResolveIn scope (nodes ++ more) ↔
    AllResolveIn scope nodes ∧ AllResolveIn (scope.within (unclosed nodes)) more := by
  induction nodes generalizing scope with
  | nil =>
    rw [List.nil_append, AllResolveIn]
    exact (and_iff_right trivial).symm
  | cons n nodes ih =>
    rw [List.cons_append, allResolveIn_cons, allResolveIn_cons, ih, unclosed_cons,
      NamespaceScope.within_append, and_assoc]

theorem allResolveIn_singleton {n : Node} : AllResolveIn scope [n] ↔ n.ResolvesIn scope := by
  rw [allResolveIn_cons, AllResolveIn, and_true]

/-- Among nodes whose names resolve where they stand, those of an element resolve in the scope of the start
tags that are open there. -/
theorem Stands.namesResolve (hs : Stands start children closing nodes ancestors opens)
    (h : AllResolveIn scope nodes) :
    NamesResolve (scope.within (opens ++ [start])) (scope.within (opens ++ start :: unclosed children)) start
      closing := by
  induction hs generalizing scope with
  | first => exact (resolvesIn_element.1 (allResolveIn_cons.1 h).1).1
  | inside _ ih => exact ih (resolvesIn_element.1 (allResolveIn_cons.1 h).1).2
  | behind _ ih =>
    have := ih (allResolveIn_cons.1 h).2
    rwa [List.append_assoc, List.append_assoc, NamespaceScope.within_append, NamespaceScope.within_append scope]

theorem Stands.trans {outer : StartTag} {inner : List Node} {outerClosing : Option EndTag}
    {above open' : List StartTag} (ho : Stands outer inner outerClosing nodes above open')
    (hs : Stands start children closing inner ancestors opens) :
    Stands start children closing nodes (above ++ outer :: ancestors) (open' ++ outer :: opens) := by
  induction ho with
  | first => exact .inside hs
  | inside _ ih => exact .inside ih
  | behind _ ih =>
    rw [List.append_assoc]
    exact .behind ih

theorem stands_of_mem_unclosed (h : start ∈ unclosed nodes) :
    start.selfClosing = false ∧ ∃ children opens, Stands start children none nodes [] opens := by
  induction nodes with
  | nil => cases h
  | cons n nodes ih =>
    rw [unclosed_cons] at h
    rcases List.mem_append.1 h with h | h
    · rw [Option.mem_toList] at h
      unfold unclosed? at h
      split at h
      · split at h
        · cases h
        · rename_i hself
          cases h
          exact ⟨by simpa using hself, _, _, .first⟩
      · cases h
    · obtain ⟨hself, children, opens, hs⟩ := ih h
      exact ⟨hself, children, _, .behind hs⟩

theorem DeclarersClosed.inside (hd : DeclarersClosed nodes)
    (hs : Stands start children closing nodes ancestors opens) : DeclarersClosed children := by
  intro first inner above open' h
  exact hd first inner _ _ (hs.trans h)

theorem DeclarersClosed.tail {n : Node} (hd : DeclarersClosed (n :: nodes)) : DeclarersClosed nodes := by
  intro first inner above open' h
  exact hd first inner _ _ (.behind h)

theorem DeclarersClosed.of_mem_unclosed (hd : DeclarersClosed nodes) :
    ∀ start ∈ unclosed nodes, start.DeclaresNothing := by
  intro start hstart
  obtain ⟨hself, children, opens, hs⟩ := stands_of_mem_unclosed hstart
  exact hd start children _ _ hs hself

/-- Start tags that are left open count for nothing where they declare nothing. -/
theorem DeclarersClosed.within_opens (hd : DeclarersClosed nodes)
    (hs : Stands start children closing nodes ancestors opens) (scope : NamespaceScope) :
    scope.within opens = scope.within ancestors := by
  induction hs generalizing scope with
  | first => rfl
  | inside _ ih => exact ih (hd.inside .first) _
  | @behind n nodes _ _ _ ih =>
    have hn : ∀ start ∈ n.unclosed?.toList, start.DeclaresNothing := by
      intro start hstart
      refine hd.of_mem_unclosed start ?_
      rw [unclosed_cons]
      exact List.mem_append_left _ hstart
    rw [NamespaceScope.within_append, NamespaceScope.within_of_declareNothing hn]
    exact ih hd.tail scope

end Node

/-! ### The stacks of the builder -/

theorem resolve_of_resolveName {scope : NamespaceScope} {name : Token} {q : QName}
    (h : resolveName scope name = .ok q) : scope.resolve name.text = .ok q := by
  unfold resolveName at h
  split at h
  · rename_i hq
    cases h
    exact hq
  · cases h

theorem startTag_resolves {token : Token} {parent scope : NamespaceScope} {start : StartTag}
    (h : startTag token parent = .ok (start, scope)) :
    scope = parent.inside start ∧ NamesResolve scope scope start none ∧
      start.selfClosing = (token.kind == .emptyTag) := by
  obtain ⟨-, hscope, hattributes, rawName, hraw, hname⟩ := startTag_ok h
  have hfields : start.rawName = rawName.text ∧ start.selfClosing = (token.kind == .emptyTag) := by
    unfold startTag at h
    rw [hraw] at h
    obtain ⟨attributes, -, h⟩ := bind_eq_ok.1 h
    obtain ⟨name, -, h⟩ := bind_eq_ok.1 h
    cases h
    exact ⟨rfl, rfl⟩
  have hdeclared : start.attributes.map (fun a => (a.rawName, a.value.getD "")) =
      token.attributes.map fun a => (a.name.text, (a.value.map Token.text).getD "") := by
    refine map_of_mapM hattributes fun a b hb => ?_
    obtain ⟨name, -, hb⟩ := bind_eq_ok.1 hb
    cases hb
    rfl
  refine ⟨?_, ⟨?_, ?_, nofun⟩, hfields.2⟩
  · rw [hscope, openedScope, NamespaceScope.inside, hdeclared]
  · rw [hfields.1]
    exact resolve_of_resolveName hname
  · intro b hb
    obtain ⟨a, -, hab⟩ := mem_of_mapM_ok hattributes hb
    obtain ⟨name, hq, hab⟩ := bind_eq_ok.1 hab
    cases hab
    exact resolve_of_resolveName hq

namespace Builder

/-- The names with places and the scopes of the start tags that are open in a working list. -/
inductive Stacked : List Entry → List (QName × Nat) → List NamespaceScope → Prop
  | root : Stacked [] [] [.root]
  | node {entries : List Entry} {openTags : List (QName × Nat)} {scopes : List NamespaceScope} {n : Node}
      (hn : n.unclosed? = none) (h : Stacked entries openTags scopes) :
      Stacked (.node n :: entries) openTags scopes
  | openTag {entries : List Entry} {openTags : List (QName × Nat)} {scope : NamespaceScope}
      {scopes : List NamespaceScope} {start : StartTag} (hs : start.selfClosing = false)
      (h : Stacked entries openTags (scope :: scopes)) :
      Stacked (.openTag start :: entries) ((start.name, entries.length) :: openTags)
        (scope.inside start :: scope :: scopes)

namespace Stacked

variable {entries : List Entry} {openTags : List (QName × Nat)} {scopes : List NamespaceScope}

theorem length_scopes (h : Stacked entries openTags scopes) : scopes.length = openTags.length + 1 := by
  induction h with
  | root => rfl
  | node _ _ ih => exact ih
  | openTag _ _ ih => rw [List.length_cons, ih, List.length_cons]

theorem unclosed_of_openTag {start : StartTag} (h : start.selfClosing = false) :
    (Entry.openTag start).toNode.unclosed? = some start := by
  simp [Entry.toNode, Node.unclosed?, h]

theorem unclosed_entries_cons (e : Entry) (entries : List Entry) :
    Node.unclosed ((e :: entries).reverse.map Entry.toNode) =
      Node.unclosed (entries.reverse.map Entry.toNode) ++ e.toNode.unclosed?.toList := by
  have hnil : Node.unclosed [] = [] := rfl
  rw [List.reverse_cons, List.map_append, Node.unclosed_append, List.map_singleton, Node.unclosed_cons, hnil,
    List.append_nil]

theorem length_openTags (h : Stacked entries openTags scopes) :
    openTags.length = (Node.unclosed (entries.reverse.map Entry.toNode)).length := by
  induction h with
  | root => rfl
  | @node _ _ _ n hn _ ih =>
    have hnone : (Entry.node n).toNode.unclosed? = none := hn
    rw [ih, unclosed_entries_cons, hnone, Option.toList_none, List.append_nil]
  | openTag hs _ ih =>
    rw [List.length_cons, ih, unclosed_entries_cons, unclosed_of_openTag hs, Option.toList_some,
      List.length_append, List.length_singleton]

/-- The innermost scope is that of the start tags that the nodes so far leave open. -/
theorem head_scopes (h : Stacked entries openTags scopes) :
    scopes.head?.getD .root = NamespaceScope.root.within (Node.unclosed (entries.reverse.map Entry.toNode)) := by
  induction h with
  | root => rfl
  | @node _ _ _ n hn _ ih =>
    have hnone : (Entry.node n).toNode.unclosed? = none := hn
    rw [ih, unclosed_entries_cons, hnone, Option.toList_none, List.append_nil]
  | openTag hs _ ih =>
    rw [unclosed_entries_cons, unclosed_of_openTag hs, NamespaceScope.within_append, ← ih]
    rfl

theorem drop_scopes (h : Stacked entries openTags scopes) (above : List NamespaceScope) :
    (above ++ scopes).drop ((above ++ scopes).length - (openTags.length + 1)) = scopes := by
  rw [← h.length_scopes, List.length_append, Nat.add_sub_cancel]
  exact List.drop_left

/-- The start tag of an open name, with what is stacked before it. -/
theorem cut {passed : List (QName × Nat)} {name : QName} {position : Nat}
    (h : Stacked entries (passed ++ (name, position) :: openTags) scopes) :
    ∃ inside start before inner scope outer, entries = inside ++ .openTag start :: before ∧
      before.length = position ∧ start.selfClosing = false ∧
      scopes = inner ++ scope.inside start :: scope :: outer ∧ Stacked before openTags (scope :: outer) := by
  generalize hall : passed ++ (name, position) :: openTags = all at h
  induction h generalizing passed with
  | root => cases passed <;> cases hall
  | @node _ _ _ n _ _ ih =>
    obtain ⟨inside, start, before, inner, scope, outer, rfl, hrest⟩ := ih hall
    exact ⟨.node n :: inside, start, before, inner, scope, outer, rfl, hrest⟩
  | @openTag _ _ scope outer start hs h ih =>
    cases passed with
    | nil =>
      cases hall
      exact ⟨[], start, _, [], scope, outer, rfl, rfl, hs, rfl, h⟩
    | cons p passed =>
      simp only [List.cons_append, List.cons.injEq] at hall
      obtain ⟨inside, first, before, inner, last, rest, rfl, hp, hf, hi, hrest⟩ := ih hall.2
      exact ⟨.openTag start :: inside, first, before, scope.inside start :: inner, last, rest, rfl, hp, hf,
        by rw [hi]; rfl, hrest⟩

theorem cut_at {passed : List (QName × Nat)} {name : QName} {position : Nat} {inside before : List Entry}
    {start : StartTag} (h : Stacked entries (passed ++ (name, position) :: openTags) scopes)
    (hentries : entries = inside ++ .openTag start :: before)
    (hinside : inside.length = entries.length - (position + 1)) :
    start.selfClosing = false ∧ ∃ inner scope outer, scopes = inner ++ scope.inside start :: scope :: outer ∧
      Stacked before openTags (scope :: outer) := by
  obtain ⟨inside', start', before', inner, scope, outer, hcut, rfl, hself, hscopes, hbefore⟩ := h.cut
  have hlength : inside.length = inside'.length := by
    rw [hcut, List.length_append, List.length_cons] at hinside
    omega
  obtain ⟨-, hcons⟩ := List.append_inj (hentries.symm.trans hcut) hlength
  cases hcons
  exact ⟨hself, inner, scope, outer, hscopes, hbefore⟩

end Stacked

/-- The stacks go with the working list, and the names read so far resolve where they stand. -/
structure IsScoped (b : Builder) : Prop where
  stacked : Stacked b.entries b.openTags b.scopes
  resolves : Node.AllResolveIn .root b.nodes

variable {b b' : Builder} {token : Token}

theorem isScoped_initial : Builder.initial.IsScoped where
  stacked := .root
  resolves := by
    show Node.AllResolveIn .root []
    rw [Node.AllResolveIn]
    trivial

theorem IsScoped.scope_eq (h : b.IsScoped) : b.scope = NamespaceScope.root.within (Node.unclosed b.nodes) :=
  h.stacked.head_scopes

theorem IsScoped.resolves_append (h : b.IsScoped) {n : Node} (hn : n.ResolvesIn b.scope) :
    Node.AllResolveIn .root (b.nodes ++ [n]) := by
  refine Node.allResolveIn_append.2 ⟨h.resolves, Node.allResolveIn_singleton.2 ?_⟩
  rwa [← h.scope_eq]

theorem resolvesIn_leaf {start : StartTag} {parent scope : NamespaceScope}
    (hs : startTag token parent = .ok (start, scope)) : (Node.element start [] none).ResolvesIn parent := by
  obtain ⟨rfl, hnames, -⟩ := startTag_resolves hs
  refine Node.resolvesIn_element.2 ⟨hnames, ?_⟩
  rw [Node.AllResolveIn]
  trivial

theorem IsScoped.stacked_openTag (h : b.IsScoped) {start : StartTag} (hself : start.selfClosing = false) :
    Stacked (.openTag start :: b.entries) ((start.name, b.entries.length) :: b.openTags)
      (b.scope.inside start :: b.scopes) := by
  have hstacked := h.stacked
  unfold scope
  cases hscopes : b.scopes with
  | nil =>
    have := hstacked.length_scopes
    rw [hscopes] at this
    cases this
  | cons scope outer =>
    rw [hscopes] at hstacked
    exact .openTag hself hstacked

/-- The element that an end tag closes resolves like its start tag, and its end tag in the scope that was the
innermost one. -/
theorem IsScoped.resolves_closed (h : b.IsScoped) {inside before : List Entry} {start : StartTag}
    {closing : EndTag} (hentries : b.entries = inside ++ .openTag start :: before)
    (hself : start.selfClosing = false) (hclosing : b.scope.resolve closing.rawName = .ok closing.name) :
    Node.AllResolveIn .root (before.reverse.map Entry.toNode ++
      [.element start (inside.reverse.map Entry.toNode) (some closing)]) := by
  have hunclosed : (Node.element start [] none).unclosed? = some start :=
    Stacked.unclosed_of_openTag hself
  have hresolves := h.resolves
  rw [nodes_of_entries hentries] at hresolves
  obtain ⟨hbefore, hrest⟩ := Node.allResolveIn_append.1 hresolves
  obtain ⟨hstart, hinside⟩ := Node.allResolveIn_cons.1 hrest
  obtain ⟨hnames, -⟩ := Node.resolvesIn_element.1 hstart
  rw [h.scope_eq, nodes_of_entries hentries, Node.unclosed_append, Node.unclosed_cons, hunclosed,
    NamespaceScope.within_append] at hclosing
  rw [hunclosed] at hinside
  refine Node.allResolveIn_append.2 ⟨hbefore, Node.allResolveIn_singleton.2 ?_⟩
  refine Node.resolvesIn_element.2 ⟨⟨hnames.tag, hnames.attributes, ?_⟩, hinside⟩
  intro e he
  cases he
  exact hclosing

theorem isScoped_step (h : b.IsScoped) (hb : b.step token = .ok b') : b'.IsScoped := by
  cases step_cases hb with
  | @opened start scope hk hs =>
    obtain ⟨hscope, -, hself⟩ := startTag_resolves hs
    rw [hk] at hself
    constructor
    · rw [hscope]
      exact h.stacked_openTag hself
    · rw [nodes_openTag]
      exact h.resolves_append (resolvesIn_leaf hs)
  | @empty start scope hk hs =>
    obtain ⟨-, -, hself⟩ := startTag_resolves hs
    rw [hk] at hself
    constructor
    · refine .node ?_ h.stacked
      simp [Node.unclosed?, hself]
    · rw [nodes_add]
      exact h.resolves_append (resolvesIn_leaf hs)
  | @closed scope outer outermost rawName name _ openTags _ inside before start _ hscopes _ hname hopen _
      hentries hinside =>
    have hstacked := h.stacked
    rw [hopen] at hstacked
    obtain ⟨hself, inner, last, rest, hsplit, hbefore⟩ := hstacked.cut_at hentries hinside
    constructor
    · -- all scopes behind the start tag's own one go, whatever stands between
      obtain ⟨above, habove⟩ : ∃ above, outer :: outermost = above ++ last :: rest := by
        rw [hscopes] at hsplit
        cases inner with
        | nil => exact ⟨[], (List.cons.inj hsplit).2⟩
        | cons _ inner => exact ⟨inner ++ [last.inside start], by simpa using (List.cons.inj hsplit).2⟩
      have hdrop := hbefore.drop_scopes above
      rw [← habove, List.length_cons] at hdrop
      rw [hdrop]
      exact .node rfl hbefore
    · rw [nodes_closed]
      refine h.resolves_closed hentries hself ?_
      rw [Builder.scope, hscopes]
      exact resolve_of_resolveName hname
  | plain kind =>
    constructor
    · exact .node rfl h.stacked
    · rw [nodes_add]
      refine h.resolves_append ?_
      rw [Node.ResolvesIn]
      trivial

theorem isScoped_run {tokens : List Token} (hb : tokens.foldlM step .initial = .ok b) : b.IsScoped :=
  foldlM_keeps (fun _ _ _ _ h hc => isScoped_step h hc) isScoped_initial hb

end Builder

/-! ### Names of a parsed tree -/

namespace Document

variable {source : String} {filename : Option String} {document : Document}

/-- In a tree, the names of an element resolve in the scope of the start tags that are open where it begins and
its own; its end tag resolves in that of the start tags among its children, too, that are left without an end.
Where all elements that declare a namespace are closed, only ancestors count. -/
theorem names_of_parse (h : parse source filename = .ok document) :
    (∀ start children closing ancestors opens,
      Node.Stands start children closing document.nodes ancestors opens →
        NamesResolve (NamespaceScope.root.within (opens ++ [start]))
          (NamespaceScope.root.within (opens ++ start :: Node.unclosed children)) start closing) ∧
      (Node.DeclarersClosed document.nodes → document.IsLexical) := by
  obtain ⟨b, hb, rfl⟩ := parse_ok h
  have hall := (Builder.isScoped_run hb).resolves
  refine ⟨fun start children closing ancestors opens hs => hs.namesResolve hall, ?_⟩
  intro hd start children closing ancestors opens hs
  have hnames := hs.namesResolve hall
  have hinner := (hd.inside hs).of_mem_unclosed
  have hlast : NamespaceScope.root.within (opens ++ start :: Node.unclosed children) =
      NamespaceScope.root.within (opens ++ [start]) := by
    rw [List.append_cons, NamespaceScope.within_append, NamespaceScope.within_of_declareNothing hinner]
  have hopens : NamespaceScope.root.within (opens ++ [start]) =
      NamespaceScope.root.within (ancestors ++ [start]) := by
    rw [NamespaceScope.within_append, hd.within_opens hs, ← NamespaceScope.within_append]
  rwa [hlast, hopens] at hnames

/-- A start tag that is never closed declares a prefix anew, for the element behind it and for an end tag. -/
def strayDeclaration : String :=
  "<x:a xmlns:x=\"urn:1\" xmlns:y=\"urn:2\"><b xmlns:y=\"urn:1\"><y:i/></y:a>"

/-- A start tag that declares nothing is never closed. -/
def plainBreak : String :=
  "<x:a xmlns:x=\"urn:1\"><br><x:i/></x:a>"

/-- The tree is one element with two more inside it, of which the first is never closed and the second closes
itself. -/
def breaks? (d : Document) : Option (StartTag × StartTag × StartTag × EndTag) :=
  match d.nodes with
  | [.element outer [.element first [] none, .element start [] none] (some e)] =>
    if !first.selfClosing && start.selfClosing then some (outer, first, start, e) else none
  | _ => none

theorem breaks?_eq_some {d : Document} {outer first start : StartTag} {e : EndTag}
    (h : d.breaks? = some (outer, first, start, e)) :
    d.nodes = [.element outer [.element first [] none, .element start [] none] (some e)] ∧
      first.selfClosing = false ∧ start.selfClosing = true := by
  unfold breaks? at h
  split at h
  · rename_i hnodes
    split at h
    · rename_i hself
      cases h
      simpa [hnodes] using hself
    · cases h
  · cases h

theorem exists_breaks {source : String} {p : StartTag × StartTag × StartTag × EndTag → Bool}
    (h : (parse source none).toOption.any fun d => d.breaks?.any p) :
    ∃ document outer first start e, parse source none = .ok document ∧
      document.nodes = [.element outer [.element first [] none, .element start [] none] (some e)] ∧
      first.selfClosing = false ∧ start.selfClosing = true ∧ p (outer, first, start, e) := by
  cases hp : parse source none with
  | error fault => rw [hp] at h; cases h
  | ok document =>
    rw [hp] at h
    simp only [Except.toOption, Option.any_some] at h
    cases hb : document.breaks? with
    | none => rw [hb] at h; cases h
    | some found =>
      obtain ⟨outer, first, start, e⟩ := found
      rw [hb] at h
      obtain ⟨hnodes, hfirst, hstart⟩ := breaks?_eq_some hb
      exact ⟨document, outer, first, start, e, rfl, hnodes, hfirst, hstart, h⟩

theorem names_of_parse_strayDeclaration :
    (∃ document outer first start e, parse strayDeclaration none = .ok document ∧
      document.nodes = [.element outer [.element first [] none, .element start [] none] (some e)] ∧
      NamesResolve (NamespaceScope.root.within [outer, first, start])
        (NamespaceScope.root.within [outer, first, start]) start none) ∧
      ∃ document, parse plainBreak none = .ok document ∧ document.IsLexical := by
  constructor
  · have hb : (parse strayDeclaration none).toOption.any fun d => d.breaks?.any fun _ => true := by
      decide +kernel
    obtain ⟨document, outer, first, start, e, hp, hnodes, hfirst, hstart, -⟩ := exists_breaks hb
    have hopen : (Node.element first [] none).unclosed? = some first := by
      simp [Node.unclosed?, hfirst]
    have hinner : Node.Stands start [] none [.element first [] none, .element start [] none] []
        ((Node.element first [] none).unclosed?.toList ++ []) :=
      .behind .first
    rw [hopen] at hinner
    have hs : Node.Stands start [] none document.nodes [outer] [outer, first] := by
      rw [hnodes]
      exact .inside hinner
    exact ⟨document, outer, first, start, e, hp, hnodes, (names_of_parse hp).1 _ _ _ _ _ hs⟩
  · have hb : (parse plainBreak none).toOption.any fun d => d.breaks?.any fun (_, first, _, _) =>
        first.attributes.isEmpty := by
      decide +kernel
    obtain ⟨document, outer, first, start, e, hp, hnodes, hfirst, hstart, hnone⟩ := exists_breaks hb
    refine ⟨document, hp, (names_of_parse hp).2 ?_⟩
    rw [hnodes]
    intro open' children ancestors opens hs hself
    -- of the three elements, only the first inside has neither an end tag nor closes itself
    cases hs with
    | inside hs =>
      cases hs with
      | first =>
        unfold StartTag.DeclaresNothing
        rw [List.isEmpty_iff.1 hnone]
        exact List.forall_mem_nil _
      | inside hs => cases hs
      | behind hs =>
        cases hs with
        | first =>
          rw [hstart] at hself
          cases hself
        | inside hs => cases hs
        | behind hs => cases hs
    | behind hs => cases hs

/-- What is declared where no end tag follows reaches further than the elements around it. -/
theorem not_isLexical_strayDeclaration : ∃ document outer first start e,
    parse strayDeclaration none = .ok document ∧
      document.nodes = [.element outer [.element first [] none, .element start [] none] (some e)] ∧
      (NamespaceScope.root.within [outer, start]).resolve start.rawName ≠ .ok start.name ∧
      (NamespaceScope.root.within [outer]).resolve e.rawName ≠ .ok e.name ∧ ¬document.IsLexical := by
  have hb : (parse strayDeclaration none).toOption.any fun d => d.breaks?.any fun (outer, _, start, e) =>
      decide ((NamespaceScope.root.within [outer, start]).resolve start.rawName ≠ .ok start.name) &&
        decide ((NamespaceScope.root.within [outer]).resolve e.rawName ≠ .ok e.name) := by
    decide +kernel
  obtain ⟨document, outer, first, start, e, hp, hnodes, -, -, hnames⟩ := exists_breaks hb
  simp only [Bool.and_eq_true, decide_eq_true_eq] at hnames
  obtain ⟨htag, hclosing⟩ := hnames
  refine ⟨document, outer, first, start, e, hp, hnodes, htag, hclosing, fun hl => hclosing ?_⟩
  have hs : Node.Stands outer [.element first [] none, .element start [] none] (some e) document.nodes [] [] := by
    rw [hnodes]
    exact .first
  exact (hl _ _ _ _ _ hs).closing e rfl

end Document

end MarkupTemplate
