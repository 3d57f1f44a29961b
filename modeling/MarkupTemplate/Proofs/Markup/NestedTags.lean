import MarkupTemplate.Proofs.Markup.LexicalScopes

/-!
# Sources whose tags are nested

Each end tag of a source closes the innermost open start tag if and only if no element of its tree that has
an end tag holds a start tag without one (`Builder.nested_step`, `Builder.nested_run`). Scan and builder are
in the same scope at each tag of such a source, so the scan finds the attributes of the tree in document order
(`scanAttributes_of_nested`).
-/

namespace MarkupTemplate

namespace Node

mutual

/-- Inside elements with an end tag, every start tag has one or closes itself. -/
def isNested : Node → Bool
  | markup .. => true
  | element _ children closing => (closing.isNone || (unclosed children).isEmpty) && allNested children

def allNested : List Node → Bool
  | [] => true
  | n :: nodes => n.isNested && allNested nodes

end

variable {start : StartTag} {children nodes more : List Node}

theorem allNested_cons {n : Node} : allNested (n :: nodes) ↔ n.isNested ∧ allNested nodes := by
  rw [allNested, Bool.and_eq_true]

theorem allNested_append : allNested (nodes ++ more) ↔ allNested nodes ∧ allNested more := by
  induction nodes with
  | nil =>
    rw [List.nil_append, allNested]
    exact (and_iff_right rfl).symm
  | cons n nodes ih => rw [List.cons_append, allNested_cons, allNested_cons, ih, and_assoc]

theorem allNested_singleton {n : Node} : allNested [n] ↔ n.isNested := by
  rw [allNested_cons, allNested, and_iff_left rfl]

theorem isNested_leaf (start : StartTag) : (element start [] none).isNested := by
  rw [isNested, allNested]
  rfl

theorem isNested_closed {closing : EndTag} :
    (element start children (some closing)).isNested ↔ unclosed children = [] ∧ allNested children := by
  rw [isNested, Bool.and_eq_true, Option.isNone_some, Bool.false_or, List.isEmpty_iff]

end Node

namespace Builder

variable {b b' : Builder} {token : Token} {tokens : List Token}

/-- An end tag passes over as many start tags as the element that it closes leaves without an end. -/
theorem IsScoped.length_passed (h : b.IsScoped) {passed openTags : List (QName × Nat)} {name : QName}
    {position : Nat} {inside before : List Entry} {start : StartTag}
    (hopen : b.openTags = passed ++ (name, position) :: openTags)
    (hentries : b.entries = inside ++ .openTag start :: before)
    (hinside : inside.length = b.entries.length - (position + 1)) :
    passed.length = (Node.unclosed (inside.reverse.map Entry.toNode)).length := by
  have hstacked := h.stacked
  have hall := hstacked.length_openTags
  rw [hopen] at hstacked
  obtain ⟨hself, inner, scope, outer, -, hbefore⟩ := hstacked.cut_at hentries hinside
  have hrest := hbefore.length_openTags
  have hstart : (Node.element start [] none).unclosed? = some start := Stacked.unclosed_of_openTag hself
  have hnodes : b.entries.reverse.map Entry.toNode = b.nodes := rfl
  rw [hnodes, nodes_of_entries hentries, Node.unclosed_append, Node.unclosed_cons, hstart, hopen] at hall
  simp only [List.length_append, List.length_cons, Option.toList_some, List.length_nil] at hall
  omega

/-- A token leaves the tree nested if it was, unless it is an end tag that passes over a start tag. -/
theorem nested_step (h : b.IsScoped) (hb : b.step token = .ok b') : Node.allNested b'.nodes ↔
    Node.allNested b.nodes ∧ (token.kind = .endTag → b'.openTags = b.openTags.tail) := by
  cases step_cases hb with
  | opened hk =>
    rw [nodes_openTag, Node.allNested_append, Node.allNested_singleton, hk]
    exact ⟨fun h => ⟨h.1, nofun⟩, fun h => ⟨h.1, Node.isNested_leaf _⟩⟩
  | empty hk =>
    rw [nodes_add, Node.allNested_append, Node.allNested_singleton, hk]
    exact ⟨fun h => ⟨h.1, nofun⟩, fun h => ⟨h.1, Node.isNested_leaf _⟩⟩
  | @closed _ _ _ rawName name passed openTags position inside before start hk hscopes _ hname hopen _ hentries
      hinside =>
    have hpassed := h.length_passed hopen hentries hinside
    have htail : openTags = (passed ++ (name, position) :: openTags).tail ↔
        Node.unclosed (inside.reverse.map Entry.toNode) = [] := by
      rw [← List.length_eq_zero_iff, ← hpassed]
      constructor
      · intro heq
        have := congrArg List.length heq
        simp only [List.length_tail, List.length_append, List.length_cons] at this
        omega
      · intro hnil
        rw [List.length_eq_zero_iff.1 hnil]
        rfl
    rw [nodes_closed, nodes_of_entries hentries, Node.allNested_append, Node.allNested_append,
      Node.allNested_singleton, Node.allNested_cons, Node.isNested_closed, hopen, hk, htail]
    constructor
    · rintro ⟨hbefore, hunclosed, hchildren⟩
      exact ⟨⟨hbefore, Node.isNested_leaf start, hchildren⟩, fun _ => hunclosed⟩
    · rintro ⟨⟨hbefore, -, hchildren⟩, hunclosed⟩
      exact ⟨hbefore, hunclosed rfl, hchildren⟩
  | plain kind _ _ hc =>
    rw [nodes_add, Node.allNested_append, Node.allNested_singleton, Node.isNested]
    exact ⟨fun h => ⟨h.1, fun hk => absurd hk hc⟩, fun h => ⟨h.1, rfl⟩⟩

theorem nested_run (h : b.IsScoped) (hb : tokens.foldlM step b = .ok b') :
    Node.allNested b'.nodes ↔ Node.allNested b.nodes ∧ NestedFrom b tokens := by
  induction tokens generalizing b with
  | nil =>
    cases hb
    exact (and_iff_left trivial).symm
  | cons token tokens ih =>
    rw [List.foldlM_cons] at hb
    obtain ⟨c, hc, hb⟩ := bind_eq_ok.1 hb
    have hfrom : NestedFrom b (token :: tokens) ↔
        (token.kind = .endTag → c.openTags = b.openTags.tail) ∧ NestedFrom c tokens := by
      constructor
      · intro hn
        exact hn c hc
      · intro hn d hd
        rw [hc] at hd
        cases hd
        exact hn
    rw [ih (isScoped_step h hc) hb, nested_step h hc, hfrom, and_assoc]

end Builder

variable {source : String} {filename : Option String} {document : Document}

/-- Each end tag of a source closes the innermost open start tag if and only if its tree holds no start tag without
an end inside an element with one. The scan then finds the attributes of the tree in document order. -/
theorem scanAttributes_of_nested (h : Document.parse source filename = .ok document) :
    (Nested source filename ↔ Node.allNested document.nodes) ∧
      (Nested source filename → scanAttributes source filename =
        .ok ((Node.tagsAll document.nodes).flatMap fun start =>
          start.attributes.map fun a => ⟨start.name, a.name, a.rawName, a.value, a.location⟩)) := by
  constructor
  · obtain ⟨b, hb, rfl⟩ := Document.parse_ok h
    have hnil : Node.allNested (Builder.nodes .initial) := rfl
    rw [Builder.nested_run Builder.isScoped_initial hb]
    exact (and_iff_right hnil).symm
  · intro hn
    exact scanAttributes_of_inStep (inStep_of_nested hn) h

/-- A prefix is declared anew and back again, and the last tag is never closed. -/
def redeclared : String :=
  "<a xmlns:p=\"urn:1\"><b p:x='1' xmlns:p=\"urn:2\"><p:c p:y/></b><d p:z=3>"

theorem scanAttributes_of_nested_redeclared : ∃ document, Document.parse redeclared none = .ok document ∧
    scanAttributes redeclared none =
      .ok ((Node.tagsAll document.nodes).flatMap fun start =>
        start.attributes.map fun a => ⟨start.name, a.name, a.rawName, a.value, a.location⟩) ∧
    (scanAttributes redeclared none).toOption.map (List.map fun a => (a.element.text, a.rawName, a.name.space)) =
      some [("a", "xmlns:p", some xmlnsSpace), ("b", "p:x", some "urn:2"), ("b", "xmlns:p", some xmlnsSpace),
        ("\x7burn:2\x7dc", "p:y", some "urn:2"), ("d", "p:z", some "urn:1")] := by
  have hb : (Document.parse redeclared none).toOption.any fun d => Node.allNested d.nodes := by
    decide +kernel
  cases hp : Document.parse redeclared none with
  | error fault => rw [hp] at hb; cases hb
  | ok document =>
    rw [hp] at hb
    obtain ⟨hiff, hscan⟩ := scanAttributes_of_nested hp
    exact ⟨document, rfl, hscan (hiff.2 hb), by decide +kernel⟩

end MarkupTemplate
