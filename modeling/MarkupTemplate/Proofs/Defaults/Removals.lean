import MarkupTemplate.Proofs.Compile.Directives
import MarkupTemplate.Proofs.Directive.Entries
import MarkupTemplate.Proofs.Markup.Escaping
import MarkupTemplate.Proofs.Reordering.Directives

/-!
# Directives taken out of a tree

A directive that stands at a place is taken out of the tags of a tree, or, of the attributes that it computes, those
with a name. All that is left keeps its place. A tag that closes itself and gives content is opened up, since the
content would have opened it. The other directives of the tag are the same as before (`StartTag.ofTag_without`).
-/

namespace MarkupTemplate

/-- What is taken out of a tree: a directive at a place, or, of the attributes that the directive at a place
computes, those with a name. -/
inductive Removal where
  | condition (place : Location)
  | loop (place : Location)
  | content (place : Location)
  | replace (place : Location)
  | entry (name : String) (place : Location)
  deriving DecidableEq, Repr

namespace Removal

/-- The kind of the directive. -/
def kind : Removal → TalKind
  | condition _ => .condition
  | loop _ => .loop
  | content _ => .content
  | replace _ => .replace
  | entry .. => .attributes

/-- The place of the directive. -/
def place : Removal → Location
  | condition place => place
  | loop place => place
  | content place => place
  | replace place => place
  | entry _ place => place

/-- What is left of the argument, if the directive stays at all. -/
def rest? : Removal → String → Option String
  | entry name _, argument => some (Directive.withoutEntries name argument)
  | _, _ => none

/-- What is left of a directive. -/
def left? (r : Removal) (d : Directive TalKind) : Option (Directive TalKind) :=
  if d.kind = r.kind ∧ d.location = r.place then
    (r.rest? d.argument).map fun argument => ⟨d.kind, argument, d.location⟩
  else some d

theorem kind_of_left? (r : Removal) {d e : Directive TalKind} (h : r.left? d = some e) : e.kind = d.kind := by
  unfold left? at h
  split at h
  · obtain ⟨argument, -, rfl⟩ := Option.map_eq_some_iff.1 h
    rfl
  · cases h
    rfl

/-- The attribute of a tag is the directive. -/
def isAt (r : Removal) (start : StartTag) (a : Attribute) : Bool :=
  start.language? a == some .tal && TalKind.parse? a.name.name == some r.kind && a.location == r.place

/-- What is left of the attribute that is the directive. -/
def attribute? (r : Removal) (a : Attribute) : Option Attribute :=
  ((DirectiveSet.argument a).toOption.bind r.rest?).map fun argument =>
    { a with value := some (escapeAttribute argument), quote := some '"' }

/-- The directive is taken out of the tag. -/
def concerns (r : Removal) (start : StartTag) : Bool :=
  start.attributes.any (r.isAt start)

/-- The tag closes itself, and the directive that is taken out gave content. -/
def opensUp (r : Removal) (start : StartTag) : Bool :=
  r.concerns start && start.selfClosing && (r.kind == .content || r.kind == .replace)

end Removal

/-! ### Trees -/

namespace StartTag

/-- The attributes that are left. -/
def attributesWithout (start : StartTag) (r : Removal) : List Attribute :=
  start.attributes.filterMap fun a => if r.isAt start a then r.attribute? a else some a

/-- What is left of a start tag. -/
def without (start : StartTag) (r : Removal) : StartTag :=
  if r.concerns start then
    let attributes := start.attributesWithout r
    let close := if r.opensUp start then ">" else start.close
    { start with
      attributes
      close
      text := "<" ++ start.rawName ++ String.join (attributes.map Attribute.source) ++ close
      selfClosing := start.selfClosing && !r.opensUp start }
  else start

/-- The end tag of an element whose start tag is cut down. -/
def endWithout (start : StartTag) (r : Removal) (closing : Option EndTag) : Option EndTag :=
  if r.opensUp start then some ⟨start.name, start.rawName, "</" ++ start.rawName ++ ">", start.location⟩
  else closing

end StartTag

namespace Node

mutual

/-- What is left of a node. -/
def without (r : Removal) : Node → Node
  | .markup kind text location => .markup kind text location
  | .element start children closing =>
    .element (start.without r) (withoutAll r children) (start.endWithout r closing)

/-- What is left of nodes. -/
def withoutAll (r : Removal) : List Node → List Node
  | [] => []
  | n :: ns => without r n :: withoutAll r ns

end

end Node

/-- What is left of a tree. -/
def Document.without (document : Document) (r : Removal) : Document :=
  { document with nodes := Node.withoutAll r document.nodes }

/-! ### Directives that are left -/

namespace DirectiveSet

variable {start : StartTag} {set next other : DirectiveSet} {a : Attribute} {kind : TalKind} {text : String}

theorem addAttribute_ok (h : addAttribute start set a = .ok next) :
    start.language? a = none ∧ next = set ∨
    (∃ kind text, start.language? a = some .tal ∧ TalKind.parse? a.name.name = some kind ∧
      argument a = .ok text ∧ set.tal? kind = none ∧
      next = ⟨set.tal ++ [⟨kind, text, a.location⟩], set.metal⟩) ∨
    ∃ kind text, start.language? a = some .metal ∧ MetalKind.parse? a.name.name = some kind ∧
      argument a = .ok text ∧ set.metal? kind = none ∧
      next = ⟨set.tal, set.metal ++ [⟨kind, text, a.location⟩]⟩ := by
  unfold addAttribute at h
  split at h
  · next language hl =>
    have h := CompileProblem.located_ok h
    unfold add at h
    obtain ⟨text, ht, h⟩ := bind_eq_ok.1 h
    cases language with
    | tal =>
      dsimp only at h
      split at h
      · cases h
      · rename_i kind hk
        split at h
        · cases h
        · rename_i hnone
          cases h
          exact .inr (.inl ⟨kind, text, hl, hk, ht, Option.not_isSome_iff_eq_none.1 hnone, rfl⟩)
    | metal =>
      dsimp only at h
      split at h
      · cases h
      · rename_i kind hk
        split at h
        · cases h
        · rename_i hnone
          cases h
          exact .inr (.inr ⟨kind, text, hl, hk, ht, Option.not_isSome_iff_eq_none.1 hnone, rfl⟩)
  · next hl =>
    cases h
    exact .inl ⟨hl, rfl⟩

theorem addAttribute_tal (hl : start.language? a = some .tal) (hk : TalKind.parse? a.name.name = some kind)
    (ht : argument a = .ok text) (hnone : set.tal? kind = none) :
    addAttribute start set a = .ok ⟨set.tal ++ [⟨kind, text, a.location⟩], set.metal⟩ := by
  have hadd : set.add .tal a = .ok ⟨set.tal ++ [⟨kind, text, a.location⟩], set.metal⟩ := by
    simp only [add, ht, hk, hnone, Bind.bind, Except.bind, Option.isSome_none, Bool.false_eq_true, if_false]
  rw [addAttribute, hl]
  exact congrArg (CompileProblem.located a.location) hadd

theorem addAttribute_metal {kind : MetalKind} (hl : start.language? a = some .metal)
    (hk : MetalKind.parse? a.name.name = some kind) (ht : argument a = .ok text)
    (hnone : set.metal? kind = none) :
    addAttribute start set a = .ok ⟨set.tal, set.metal ++ [⟨kind, text, a.location⟩]⟩ := by
  have hadd : set.add .metal a = .ok ⟨set.tal, set.metal ++ [⟨kind, text, a.location⟩]⟩ := by
    simp only [add, ht, hk, hnone, Bind.bind, Except.bind, Option.isSome_none, Bool.false_eq_true, if_false]
  rw [addAttribute, hl]
  exact congrArg (CompileProblem.located a.location) hadd

theorem addAttribute_none (hl : start.language? a = none) : addAttribute start set a = .ok set := by
  rw [addAttribute, hl]

theorem tal?_concat (tal : List (Directive TalKind)) (metal : List (Directive MetalKind)) (d : Directive TalKind)
    (kind : TalKind) : (⟨tal ++ [d], metal⟩ : DirectiveSet).tal? kind =
      (tal.find? (·.kind == kind)).or (if d.kind = kind then some d else none) := by
  rw [tal?, List.find?_append, List.find?_singleton]
  simp only [beq_iff_eq]

/-- The second set holds what a removal leaves of the first. -/
structure Leaves (r : Removal) (set other : DirectiveSet) : Prop where
  metal : other.metal = set.metal
  tal : ∀ kind, other.tal? kind = (set.tal? kind).bind r.left?

theorem Leaves.concat {r : Removal} (h : Leaves r set other) {d : Directive TalKind}
    (hnone : set.tal? d.kind = none) :
    Leaves r ⟨set.tal ++ [d], set.metal⟩ ⟨other.tal ++ (r.left? d).toList, other.metal⟩ where
  metal := h.metal
  tal kind := by
    have hset := h.tal kind
    rw [tal?_concat]
    by_cases hk : d.kind = kind
    · subst hk
      rw [hnone, Option.bind_none] at hset
      have hfind : set.tal.find? (·.kind == d.kind) = none := hnone
      rw [hfind, if_pos rfl, Option.none_or, Option.bind_some]
      cases hd : r.left? d with
      | none => rwa [Option.toList_none, List.append_nil]
      | some e =>
        have hother : other.tal.find? (·.kind == d.kind) = none := hset
        rw [Option.toList_some, tal?_concat, hother, if_pos (r.kind_of_left? hd), Option.none_or]
    · rw [if_neg hk, Option.or_none]
      cases hd : r.left? d with
      | none => rwa [Option.toList_none, List.append_nil]
      | some e =>
        rw [Option.toList_some, tal?_concat, if_neg (r.kind_of_left? hd ▸ hk), Option.or_none]
        exact hset

end DirectiveSet

namespace StartTag

variable {start : StartTag} {r : Removal} {set next other found left : DirectiveSet} {a : Attribute}

theorem isAt_iff : r.isAt start a ↔ start.language? a = some .tal ∧ TalKind.parse? a.name.name = some r.kind ∧
    a.location = r.place := by
  simp [Removal.isAt, and_assoc]

theorem foldlM_singleton {x : Except TemplateFault DirectiveSet}
    (h : DirectiveSet.addAttribute start other a = x) :
    (Option.toList (some a)).foldlM (DirectiveSet.addAttribute start) other = x := by
  rw [Option.toList_some, List.foldlM_cons, h]
  cases x <;> rfl

/-- What is left of the attribute is read as what is left of its directive. -/
theorem addAttribute_at (hat : r.isAt start a) {text : String} (ht : DirectiveSet.argument a = .ok text)
    (hnone : other.tal? r.kind = none) :
    (r.attribute? a).toList.foldlM (DirectiveSet.addAttribute start) other =
      .ok ⟨other.tal ++ (r.left? ⟨r.kind, text, a.location⟩).toList, other.metal⟩ := by
  obtain ⟨hl, hk, hplace⟩ := isAt_iff.1 hat
  rw [Removal.attribute?, ht, Removal.left?, if_pos ⟨rfl, hplace⟩]
  show (((r.rest? text).map _).toList.foldlM _ _ : Except TemplateFault DirectiveSet) = _
  cases r.rest? text with
  | none =>
    rw [Option.map_none, Option.map_none, Option.toList_none, Option.toList_none, List.append_nil]
    rfl
  | some rest =>
    have htext : DirectiveSet.argument { a with value := some (escapeAttribute rest), quote := some '"' } =
        .ok rest := by
      simp only [DirectiveSet.argument, Option.getD_some, unescape_escapeAttribute]
    exact foldlM_singleton (DirectiveSet.addAttribute_tal hl hk htext hnone)

theorem addAttribute_leaves (h : set.Leaves r other) (hadd : DirectiveSet.addAttribute start set a = .ok next) :
    ∃ after, (Option.toList (if r.isAt start a then r.attribute? a else some a)).foldlM
      (DirectiveSet.addAttribute start) other = .ok after ∧ next.Leaves r after := by
  obtain ⟨hl, rfl⟩ | ⟨kind, text, hl, hk, ht, hnone, rfl⟩ | ⟨kind, text, hl, hk, ht, hnone, rfl⟩ :=
    DirectiveSet.addAttribute_ok hadd
  · have hat : ¬r.isAt start a := fun hat => by cases hl.symm.trans (isAt_iff.1 hat).1
    rw [if_neg hat]
    exact ⟨other, foldlM_singleton (DirectiveSet.addAttribute_none hl), h⟩
  · have hother : other.tal? kind = none := by rw [h.tal, hnone, Option.bind_none]
    have hleaves := h.concat (d := ⟨kind, text, a.location⟩) hnone
    by_cases hat : r.isAt start a
    · cases hk.symm.trans (isAt_iff.1 hat).2.1
      rw [if_pos hat]
      exact ⟨_, addAttribute_at hat ht hother, hleaves⟩
    · have hleft : r.left? ⟨kind, text, a.location⟩ = some ⟨kind, text, a.location⟩ := by
        refine if_neg fun ⟨hkind, hplace⟩ => hat ?_
        cases (hkind : kind = r.kind)
        exact isAt_iff.2 ⟨hl, hk, hplace⟩
      rw [hleft] at hleaves
      rw [if_neg hat]
      exact ⟨_, foldlM_singleton (DirectiveSet.addAttribute_tal hl hk ht hother), hleaves⟩
  · have hat : ¬r.isAt start a := fun hat => by cases hl.symm.trans (isAt_iff.1 hat).1
    have hother : other.metal? kind = none := by rw [DirectiveSet.metal?, h.metal]; exact hnone
    rw [if_neg hat]
    refine ⟨_, foldlM_singleton (DirectiveSet.addAttribute_metal hl hk ht hother), ?_, h.tal⟩
    rw [h.metal]

theorem addAttributes_leaves (h : set.Leaves r other) {attributes : List Attribute}
    (hadd : attributes.foldlM (DirectiveSet.addAttribute start) set = .ok next) :
    ∃ after, (attributes.filterMap fun a => if r.isAt start a then r.attribute? a else some a).foldlM
      (DirectiveSet.addAttribute start) other = .ok after ∧ next.Leaves r after := by
  induction attributes generalizing set other with
  | nil =>
    cases hadd
    exact ⟨other, rfl, h⟩
  | cons a attributes ih =>
    rw [List.foldlM_cons] at hadd
    obtain ⟨between, hbetween, hadd⟩ := bind_eq_ok.1 hadd
    obtain ⟨between', hbetween', hleaves⟩ := addAttribute_leaves h hbetween
    obtain ⟨after, hafter, hnext⟩ := ih hleaves hadd
    refine ⟨after, ?_, hnext⟩
    rw [List.filterMap_cons]
    split
    · next hnone =>
      rw [hnone] at hbetween'
      cases hbetween'
      exact hafter
    · next b hb =>
      rw [hb, Option.toList_some, List.foldlM_cons] at hbetween'
      obtain ⟨_, hstep, hlast⟩ := bind_eq_ok.1 hbetween'
      cases hlast
      rw [List.foldlM_cons]
      exact bind_eq_ok.2 ⟨_, hstep, hafter⟩

theorem attributes_without (start : StartTag) (r : Removal) :
    (start.without r).attributes = start.attributesWithout r := by
  unfold without
  split
  · rfl
  · next h =>
    have hall : ∀ a ∈ start.attributes, ¬r.isAt start a := by
      simpa [Removal.concerns] using h
    exact ((List.filterMap_congr fun a ha => if_neg (hall a ha)).trans List.filterMap_some).symm

theorem without_of_not_concerns (h : ¬r.concerns start) (closing : Option EndTag) :
    start.without r = start ∧ start.endWithout r closing = closing := by
  refine ⟨if_neg h, if_neg fun ho => h ?_⟩
  simp only [Removal.opensUp, Bool.and_eq_true] at ho
  exact ho.1.1

theorem name_without (start : StartTag) (r : Removal) : (start.without r).name = start.name := by
  unfold without
  split <;> rfl

theorem rawName_without (start : StartTag) (r : Removal) : (start.without r).rawName = start.rawName := by
  unfold without
  split <;> rfl

theorem location_without (start : StartTag) (r : Removal) : (start.without r).location = start.location := by
  unfold without
  split <;> rfl

/-- The directives that a tag has left are those that are left of its directives. -/
theorem ofTag_without (h : DirectiveSet.ofTag start = .ok set) (r : Removal) :
    ∃ left, DirectiveSet.ofTag (start.without r) = .ok left ∧ set.Leaves r left := by
  have hstep : DirectiveSet.addAttribute (start.without r) = DirectiveSet.addAttribute start := by
    funext set a
    unfold DirectiveSet.addAttribute language?
    rw [name_without]
  unfold DirectiveSet.ofTag at h
  obtain ⟨found, hfound, h⟩ := bind_eq_ok.1 h
  have hnothing : DirectiveSet.Leaves r ⟨[], []⟩ ⟨[], []⟩ := ⟨rfl, fun _ => rfl⟩
  obtain ⟨left, hleft, hleaves⟩ := addAttributes_leaves hnothing hfound
  have hsome (kind : TalKind) (hs : (found.tal? kind).isSome = false) : (left.tal? kind).isSome = false := by
    rw [Option.isSome_eq_false_iff, Option.isNone_iff_eq_none] at hs
    rw [hleaves.tal, hs]
    rfl
  split at h
  · cases h
  · next hboth =>
    cases h
    refine ⟨⟨DirectiveSet.inOrder left.tal, left.metal⟩, ?_, hleaves.metal, fun kind => ?_⟩
    · unfold DirectiveSet.ofTag
      rw [attributes_without, hstep]
      refine bind_eq_ok.2 ⟨left, hleft, if_neg ?_⟩
      rw [Bool.and_eq_true, not_and_or, Bool.not_eq_true, Bool.not_eq_true] at hboth ⊢
      exact hboth.imp (hsome _) (hsome _)
    · rw [DirectiveSet.tal?_inOrder, DirectiveSet.tal?_inOrder]
      exact hleaves.tal kind

/-- A directive that is taken out was there. -/
theorem tal?_of_concerns (h : DirectiveSet.ofTag start = .ok set) (hr : r.concerns start) :
    ∃ d, set.tal? r.kind = some d ∧ d.location = r.place := by
  obtain ⟨found, hfound, rfl⟩ := DirectiveSet.ofTag_ok h
  obtain ⟨a, ha, hat⟩ := List.any_eq_true.1 hr
  rw [DirectiveSet.tal?_inOrder]
  refine foldlM_reaches (D := fun a set => r.isAt start a → ∃ d, DirectiveSet.tal? set r.kind = some d ∧
    d.location = r.place) (fun a before after hadd hat => ?_) (fun a b before after hadd hd hat => ?_)
    hfound a ha hat
  · obtain ⟨hl, hk, hplace⟩ := isAt_iff.1 hat
    obtain ⟨hnone, -⟩ | ⟨kind, text, -, hkind, -, hnone, rfl⟩ | ⟨-, -, hmetal, -⟩ :=
      DirectiveSet.addAttribute_ok hadd
    · cases hl.symm.trans hnone
    · cases hk.symm.trans hkind
      refine ⟨⟨r.kind, text, a.location⟩, ?_, hplace⟩
      have hfind : before.tal.find? (·.kind == r.kind) = none := hnone
      rw [DirectiveSet.tal?_concat, hfind, if_pos rfl, Option.none_or]
    · cases hl.symm.trans hmetal
  · obtain ⟨d, hd, hplace⟩ := hd hat
    refine ⟨d, ?_, hplace⟩
    obtain ⟨-, rfl⟩ | ⟨kind, text, -, -, -, -, rfl⟩ | ⟨kind, text, -, -, -, -, rfl⟩ :=
      DirectiveSet.addAttribute_ok hadd
    · exact hd
    · have hfind : before.tal.find? (·.kind == r.kind) = some d := hd
      rw [DirectiveSet.tal?_concat, hfind, Option.some_or]
    · exact hd

end StartTag

end MarkupTemplate
