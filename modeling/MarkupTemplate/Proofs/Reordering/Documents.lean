import MarkupTemplate.Proofs.Markup.Scan
import MarkupTemplate.Proofs.Reordering.Tags

/-!
# Documents with directives at other places

`Reordered` says that tokens are those of another text with directives at other places in their start tags. It
follows the tokens with the builder that takes them, since what a directive is depends on the scope in which
its tag stands; a token that is refused changes nothing. The builder that takes the other tokens goes the same
way, so there is a tree for both or for neither, and the trees are alike (`ofTokens_together`).
-/

namespace MarkupTemplate

/-- The token is the written tag. -/
structure Token.IsWritten (t : Token) (v : WrittenTag) : Prop where
  kind : t.kind = v.kind
  text : t.text.toList = v.chars

instance (kind : TokenKind) : Decidable kind.OpensTag :=
  inferInstanceAs (Decidable (_ ∨ _))

/-- The token is what the other one is, or the same start tag with its directives at other places. -/
inductive Token.Reorders (parent : NamespaceScope) (t u : Token) : Prop
  | same (ho : ¬t.kind.OpensTag) (hk : t.kind = u.kind) (ht : t.text = u.text)
  | tag {v w : WrittenTag} (hv : v.IsStart) (ht : t.IsWritten v) (hu : u.IsWritten w) (h : v.Reorders parent w)

/-- The builder after a token, or as it was if the token is refused. -/
def Builder.next (b : Builder) (token : Token) : Builder :=
  (b.step token).toOption.getD b

/-- The tokens `us` are the tokens `ts`, which the builder is about to take, with directives at other places
in their start tags. -/
inductive Reordered : Builder → List Token → List Token → Prop
  | nil (b : Builder) : Reordered b [] []
  | cons {b : Builder} {t u : Token} {ts us : List Token} (h : t.Reorders b.scope u)
    (hrest : Reordered (b.next t) ts us) : Reordered b (t :: ts) (u :: us)

variable {t u : Token} {ts us : List Token} {n : Nat} {parent : NamespaceScope}

/-! ### Offsets -/

theorem octets_of_perm {cs ds : List Char} (h : cs.Perm ds) : octets cs = octets ds := by
  induction h with
  | nil => rfl
  | cons c _ ih => rw [octets_cons, octets_cons, ih]
  | swap c d cs => simp only [octets_cons]; omega
  | trans _ _ ih ih' => rw [ih, ih']

/-- Directives at other places take as many octets. -/
theorem WrittenTag.Reorders.octets_eq {v w : WrittenTag} (h : v.Reorders parent w) :
    octets v.chars = octets w.chars := by
  have hattributes := octets_of_perm (h.attributes.flatMap_right WrittenAttribute.chars)
  simp only [chars, front, octets_append, h.ending, h.name, h.close, hattributes]

theorem Token.Reorders.octets_eq (h : t.Reorders parent u) : octets t.text.toList = octets u.text.toList := by
  cases h with
  | same _ _ ht => rw [ht]
  | tag _ ht hu h => rw [ht.text, hu.text, h.octets_eq]

/-- The tokens stand one behind the other, the first one at the offset `n`. -/
def Token.Placed : Nat → List Token → Prop
  | _, [] => True
  | n, t :: ts => t.location.offset = n ∧ Placed (n + octets t.text.toList) ts

theorem Token.placed_scanFrom (filename : Option String) (place : Position) (cs : List Char) :
    Placed place.offset (scanFrom filename place cs) := by
  fun_induction scanFrom filename place cs with
  | case1 => trivial
  | case2 place c cs next ih =>
    rw [Position.offset_after] at ih
    refine ⟨rfl, ?_⟩
    rw [String.toList_ofList]
    exact ih

/-! ### Builders -/

/-- Both are nodes that are alike, or open start tags. -/
inductive Entry.Alike : Entry → Entry → Prop
  | node {n n' : Node} (h : n.Alike n') : Alike (.node n) (.node n')
  | openTag {start start' : StartTag} (h : start.Alike start') : Alike (.openTag start) (.openTag start')

theorem Entry.Alike.toNode {e e' : Entry} (h : e.Alike e') : e.toNode.Alike e'.toNode := by
  cases h with
  | node h => exact h
  | openTag h => exact .element h .nil rfl

theorem allAlike_toNode {es es' : List Entry} (h : List.Forall₂ Entry.Alike es es') :
    Node.AllAlike (es.reverse.map Entry.toNode) (es'.reverse.map Entry.toNode) := by
  rw [Node.allAlike_iff, List.forall₂_map_left_iff, List.forall₂_map_right_iff]
  exact (List.forall₂_reverse_iff.2 h).imp fun _ _ h => h.toNode

namespace Builder

/-- The builders have entries that are alike, and the same tags open in the same scopes. -/
structure Alike (b c : Builder) : Prop where
  entries : List.Forall₂ Entry.Alike b.entries c.entries
  openTags : b.openTags = c.openTags
  scopes : b.scopes = c.scopes

variable {b c : Builder}

theorem Alike.scope (h : b.Alike c) : b.scope = c.scope := by
  rw [Builder.scope, Builder.scope, h.scopes]

theorem Alike.add (h : b.Alike c) {n n' : Node} (hn : n.Alike n') : (b.add n).Alike (c.add n') :=
  ⟨.cons (.node hn) h.entries, h.openTags, h.scopes⟩

theorem Alike.openTag (h : b.Alike c) {start start' : StartTag} (hs : start.Alike start')
    (scope : NamespaceScope) : (b.openTag start scope).Alike (c.openTag start' scope) where
  entries := .cons (.openTag hs) h.entries
  openTags := by
    rw [Builder.openTag, Builder.openTag]
    dsimp only
    rw [hs.name, h.entries.length_eq, h.openTags]
  scopes := by
    rw [Builder.openTag, Builder.openTag]
    dsimp only
    rw [h.scopes]

theorem resolveName_together (scope : NamespaceScope) {name name' : Token} (h : name.text = name'.text) :
    Together Eq (resolveName scope name) (resolveName scope name') := by
  unfold resolveName
  rw [h]
  split
  · exact .ok rfl
  · exact .error _ _

theorem Alike.closeTag (h : b.Alike c) (hk : t.kind = u.kind) (ht : t.text = u.text) :
    Together Alike (b.closeTag t) (c.closeTag u) := by
  have htag : t.tag? = u.tag? := by
    rw [Token.tag?, Token.tag?, hk, ht]
  have hname : Option.Rel (Same Token.text) t.tagName? u.tagName? := by
    rw [Token.tagName?, Token.tagName?, htag]
    cases u.tag? with
    | none => exact .none
    | some v => exact .some rfl
  unfold Builder.closeTag
  rw [h.scopes]
  generalize t.tagName? = name at hname ⊢
  generalize u.tagName? = name' at hname ⊢
  split
  · cases hname with
    | none => exact .error _ _
    | some hname =>
      refine (resolveName_together _ hname).bind fun q q' hq => ?_
      subst hq
      rw [h.openTags]
      split
      · exact .error _ _
      · next position openTags _ =>
        dsimp only
        rw [h.entries.length_eq]
        have hinside := List.forall₂_take (c.entries.length - (position + 1)) h.entries
        have hbehind := List.forall₂_drop (c.entries.length - (position + 1)) h.entries
        generalize b.entries.drop (c.entries.length - (position + 1)) = es at hbehind ⊢
        generalize c.entries.drop (c.entries.length - (position + 1)) = es' at hbehind ⊢
        cases hbehind with
        | nil => exact .error _ _
        | cons he hbefore =>
          cases he with
          | node => exact .error _ _
          | openTag hs =>
            refine .ok ⟨.cons (.node (.element hs (allAlike_toNode hinside) ?_)) hbefore, rfl, rfl⟩
            rw [Option.map_some, Option.map_some, ht]
  · exact .error _ _

/-- The builders stay alike, or both refuse the token. -/
theorem step_together (h : b.Alike c) (hr : t.Reorders b.scope u)
    (hoffset : t.location.offset = u.location.offset) : Together Alike (b.step t) (c.step u) := by
  cases hr with
  | @tag v w hv ht hu hr =>
    have hstart := startTag_together hr hv ht.kind ht.text hu.kind hu.text hoffset
    have hkind : v.kind = .startTag ∨ v.kind = .emptyTag := by
      rw [WrittenTag.kind, hv.ending]
      simp only [Bool.false_eq_true, if_false]
      split
      · exact .inr rfl
      · exact .inl rfl
    unfold step
    rw [ht.kind, hu.kind, ← hr.kind, ← h.scope]
    rcases hkind with hk | hk
    · rw [hk]
      refine hstart.bind ?_
      rintro ⟨s, scope⟩ ⟨s', scope'⟩ ⟨hs, hscope⟩
      obtain rfl : scope = scope' := hscope
      exact .ok (h.openTag hs scope)
    · rw [hk]
      exact hstart.bind fun x x' hx => .ok (h.add (.element hx.1 .nil rfl))
  | same ho hk ht =>
    have hmarkup (kind : MarkupKind) : (b.add (.markup kind t.text t.location)).Alike
        (c.add (.markup kind u.text u.location)) := by
      rw [ht]
      exact h.add (.markup kind _ _ _)
    unfold step
    rw [← hk]
    cases hkind : t.kind with
    | startTag => exact absurd (.inl hkind) ho
    | emptyTag => exact absurd (.inr hkind) ho
    | endTag => exact h.closeTag hk ht
    | malformed => exact .error _ _
    | text | comment | cdata | declaration | xmlDeclaration | instruction => exact .ok (hmarkup _)

/-- The same after all tokens. -/
theorem run_together (h : b.Alike c) (hr : Reordered b ts us) (hts : Token.Placed n ts)
    (hus : Token.Placed n us) : Together Alike (ts.foldlM step b) (us.foldlM step c) := by
  induction hr generalizing c n with
  | nil => exact .ok h
  | @cons b t u ts us hr hrest ih =>
    obtain ⟨ht, hts⟩ := hts
    obtain ⟨hu, hus⟩ := hus
    have hstep := step_together h hr (ht.trans hu.symm)
    rw [List.foldlM_cons, List.foldlM_cons]
    cases hb : b.step t with
    | error fault =>
      rw [hb] at hstep
      generalize c.step u = x at hstep ⊢
      cases hstep with
      | error => exact .error _ _
    | ok b' =>
      have hnext : b.next t = b' := by rw [next, hb]; rfl
      rw [hb] at hstep
      rw [hnext] at ih
      generalize c.step u = x at hstep ⊢
      cases hstep with
      | ok h => exact ih h hts (hr.octets_eq ▸ hus)

end Builder

/-- There is a tree for both or for neither, and the trees are alike. -/
theorem Document.ofTokens_together (hr : Reordered .initial ts us) (hts : Token.Placed n ts)
    (hus : Token.Placed n us) (filename : Option String) :
    Together (fun d d' : Document => Node.AllAlike d.nodes d'.nodes) (ofTokens ts filename)
      (ofTokens us filename) :=
  (Builder.run_together ⟨.nil, rfl, rfl⟩ hr hts hus).bind fun _ _ h => .ok (allAlike_toNode h.entries)

/-- Two sources go together if the tokens of one are those of the other with directives at other places. -/
theorem Document.parse_together {source other : String} {filename : Option String}
    (hr : Reordered .initial (Token.scan source filename) (Token.scan other filename)) :
    Together (fun d d' : Document => Node.AllAlike d.nodes d'.nodes) (parse source filename)
      (parse other filename) :=
  ofTokens_together hr (Token.placed_scanFrom filename .start source.toList)
    (Token.placed_scanFrom filename .start other.toList) filename

end MarkupTemplate
