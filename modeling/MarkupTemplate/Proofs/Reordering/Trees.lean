import MarkupTemplate.Proofs.Reordering.Directives

/-!
# Trees with attributes in another order

Start tags are alike if they have the same attributes, those that reach the output in the same order, and
begin at the same offset; trees are alike if their tags are, one by one. Elements that are alike have the same
directives and carry over the same attributes, and where nothing is kept from the output they have the same
text.
-/

namespace MarkupTemplate

/-- The tags differ at most in where their directives stand among the attributes, and in their places. -/
structure StartTag.Alike (s t : StartTag) : Prop where
  name : s.name = t.name
  rawName : s.rawName = t.rawName
  close : s.close = t.close
  selfClosing : s.selfClosing = t.selfClosing
  offset : s.location.offset = t.location.offset
  attributes : (s.attributes.map Attribute.unplaced).Perm (t.attributes.map Attribute.unplaced)
  carried : s.carried = t.carried
  text : s.attributes.any s.strips = false → s.text = t.text

namespace Node

mutual

/-- The nodes differ at most in where directives stand in their tags, and in their places. -/
inductive Alike : Node → Node → Prop
  | markup (kind : MarkupKind) (text : String) (location location' : Location) :
    Alike (.markup kind text location) (.markup kind text location')
  | element {start start' : StartTag} {children children' : List Node} {closing closing' : Option EndTag}
    (hstart : start.Alike start') (hchildren : AllAlike children children')
    (hclosing : closing.map EndTag.text = closing'.map EndTag.text) :
    Alike (.element start children closing) (.element start' children' closing')

/-- The nodes are alike, one by one. -/
inductive AllAlike : List Node → List Node → Prop
  | nil : AllAlike [] []
  | cons {n n' : Node} {ns ns' : List Node} (hn : Alike n n') (hns : AllAlike ns ns') :
    AllAlike (n :: ns) (n' :: ns')

end

theorem allAlike_iff {ns ns' : List Node} : AllAlike ns ns' ↔ List.Forall₂ Alike ns ns' := by
  constructor
  · intro h
    induction ns generalizing ns' with
    | nil => cases h; exact .nil
    | cons n ns ih =>
      cases h with
      | cons hn hns => exact .cons hn (ih hns)
  · intro h
    induction h with
    | nil => exact .nil
    | cons hn _ ih => exact .cons hn ih

end Node

/-- The elements differ at most in where directives stand in their tags, and in their places. -/
structure Element.Alike (e f : Element) : Prop where
  start : e.start.Alike f.start
  children : Node.AllAlike e.children f.children
  closing : e.closing.map EndTag.text = f.closing.map EndTag.text

namespace StartTag

variable {s t : StartTag}

theorem Alike.refl (s : StartTag) : s.Alike s where
  name := rfl
  rawName := rfl
  close := rfl
  selfClosing := rfl
  offset := rfl
  attributes := .refl _
  carried := rfl
  text _ := rfl

theorem Alike.isDirective (h : s.Alike t) : s.isDirective = t.isDirective := by
  rw [StartTag.isDirective, StartTag.isDirective, h.name]

/-- What is kept from the output depends on the tag's name alone. -/
theorem strips_of_name (h : s.name = t.name) : s.strips = t.strips := by
  funext a
  unfold strips language?
  rw [h]

theorem Alike.any_strips (h : s.Alike t) : s.attributes.any s.strips = t.attributes.any t.strips := by
  have hplaces (as : List Attribute) : as.any t.strips = (as.map Attribute.unplaced).any t.strips := by
    rw [List.any_map]
    rfl
  rw [strips_of_name h.name, hplaces s.attributes, hplaces t.attributes, h.attributes.any_eq]

theorem Alike.ofTag (h : s.Alike t) :
    Together DirectiveSet.Alike (DirectiveSet.ofTag s) (DirectiveSet.ofTag t) :=
  DirectiveSet.ofTag_together h.name h.attributes

end StartTag

namespace Node

mutual

theorem Alike.refl : ∀ n : Node, n.Alike n
  | .markup kind text location => .markup kind text location location
  | .element start children _ => .element (.refl start) (AllAlike.refl children) rfl

theorem AllAlike.refl : ∀ ns : List Node, AllAlike ns ns
  | [] => .nil
  | n :: ns => .cons (Alike.refl n) (AllAlike.refl ns)

end

end Node

end MarkupTemplate
