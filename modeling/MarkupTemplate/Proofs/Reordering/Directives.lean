import Mathlib.Data.List.Perm.Basic
import Mathlib.Logic.Function.Basic
import MarkupTemplate.Compile.Builder
import MarkupTemplate.Proofs.Compile.Directives
import MarkupTemplate.Proofs.Reordering.Together
import MarkupTemplate.Proofs.Reordering.Unplaced

/-!
# Directives in any order

The directives of a tag are collected from its attributes one by one. What has been collected is known by the
argument of each kind; another attribute adds the argument of its kind, or is a fault if that is known already.
Two attributes can be told in either order (`StartTag.tell_comm`), so a tag whose attributes stand in another
order has the same directives or a fault as well (`DirectiveSet.ofTag_together`).
-/

namespace MarkupTemplate

/-- The attribute without its place. -/
def Attribute.unplaced (a : Attribute) : Attribute :=
  { a with location := .nowhere }

/-- The directives are of one kind and have one argument, wherever they stand. -/
structure Directive.Alike {κ : Type} (d e : Directive κ) : Prop where
  kind : d.kind = e.kind
  argument : d.argument = e.argument

namespace DirectiveSet

/-- The same directives stand on both elements. -/
structure Alike (s t : DirectiveSet) : Prop where
  tal : ∀ kind, Option.Rel Directive.Alike (s.tal? kind) (t.tal? kind)
  metal : ∀ kind, Option.Rel Directive.Alike (s.metal? kind) (t.metal? kind)

/-! ### What directives say -/

/-- The argument of each directive. -/
def arguments (set : DirectiveSet) : TalKind ⊕ MetalKind → Option String
  | .inl kind => (set.tal? kind).map Directive.argument
  | .inr kind => (set.metal? kind).map Directive.argument

/-- The kind and the argument of the directive that an attribute is. -/
def spoken? (language : DirectiveLanguage) (a : Attribute) : Option ((TalKind ⊕ MetalKind) × String) := do
  let text ← (argument a).toOption
  let kind ← match language with
    | .tal => (TalKind.parse? a.name.name).map Sum.inl
    | .metal => (MetalKind.parse? a.name.name).map Sum.inr
  return (kind, text)

/-- The arguments known and that of one more directive, unless there has been one of its kind. -/
def hear (known : TalKind ⊕ MetalKind → Option String) (d : (TalKind ⊕ MetalKind) × String) :
    Option (TalKind ⊕ MetalKind → Option String) :=
  if (known d.1).isSome then none else some (Function.update known d.1 (some d.2))

theorem hear_comm (known : TalKind ⊕ MetalKind → Option String) (d e : (TalKind ⊕ MetalKind) × String) :
    (hear known d).bind (hear · e) = (hear known e).bind (hear · d) := by
  have hnone : ∀ x y : (TalKind ⊕ MetalKind) × String, (known x.1).isSome →
      (hear known y).bind (hear · x) = none := by
    intro x y hx
    unfold hear
    split
    · rfl
    · have hne : x.1 ≠ y.1 := by
        rintro heq
        exact absurd (heq ▸ hx) ‹_›
      rw [Option.bind_some, Function.update_of_ne hne, if_pos hx]
  by_cases hd : (known d.1).isSome
  · rw [hnone d e hd, hear, if_pos hd, Option.bind_none]
  by_cases he : (known e.1).isSome
  · rw [hnone e d he, hear, if_pos he, Option.bind_none]
  rw [hear, if_neg hd, hear, if_neg he, Option.bind_some, Option.bind_some]
  by_cases heq : d.1 = e.1
  · simp only [hear, heq, Function.update_self, Option.isSome_some, if_true]
  · rw [hear, hear, Function.update_of_ne (Ne.symm heq), Function.update_of_ne heq, if_neg hd, if_neg he,
      Function.update_comm heq]

/-- One more directive, of a kind that has not been there, is the one of its kind. -/
theorem argument_concat {κ : Type} [DecidableEq κ] {ds : List (Directive κ)} {d : Directive κ}
    (hd : ¬(ds.find? (·.kind == d.kind)).isSome) (kind : κ) :
    ((ds ++ [d]).find? (·.kind == kind)).map Directive.argument =
      if kind = d.kind then some d.argument else (ds.find? (·.kind == kind)).map Directive.argument := by
  rw [List.find?_append]
  split
  · next hk =>
    subst hk
    rw [Option.not_isSome_iff_eq_none.1 hd]
    simp
  · next hk =>
    have hne : (d.kind == kind) = false := by simpa using Ne.symm hk
    simp [hne]

theorem arguments_tal {tal : List (Directive TalKind)} {metal : List (Directive MetalKind)}
    {d : Directive TalKind} (hd : ¬(tal.find? (·.kind == d.kind)).isSome) :
    arguments ⟨tal ++ [d], metal⟩ =
      Function.update (arguments ⟨tal, metal⟩) (.inl d.kind) (some d.argument) := by
  funext kind
  cases kind with
  | inl kind => simp only [arguments, tal?, argument_concat hd, Function.update_apply, Sum.inl.injEq]
  | inr kind => rw [Function.update_of_ne (by simp)]; rfl

theorem arguments_metal {tal : List (Directive TalKind)} {metal : List (Directive MetalKind)}
    {d : Directive MetalKind} (hd : ¬(metal.find? (·.kind == d.kind)).isSome) :
    arguments ⟨tal, metal ++ [d]⟩ =
      Function.update (arguments ⟨tal, metal⟩) (.inr d.kind) (some d.argument) := by
  funext kind
  cases kind with
  | inl kind => rw [Function.update_of_ne (by simp)]; rfl
  | inr kind => simp only [arguments, metal?, argument_concat hd, Function.update_apply, Sum.inr.injEq]

theorem arguments_add (set : DirectiveSet) (language : DirectiveLanguage) (a : Attribute) :
    (set.add language a).toOption.map arguments = (spoken? language a).bind (hear set.arguments) := by
  unfold add spoken?
  cases argument a with
  | error fault => rfl
  | ok text =>
    cases language with
    | tal =>
      cases TalKind.parse? a.name.name with
      | none => rfl
      | some kind =>
        show Option.map arguments (Except.toOption (ite ..)) = hear set.arguments (.inl kind, text)
        rw [hear, arguments, Option.isSome_map]
        split
        · rfl
        · next hd => exact congrArg some (arguments_tal (d := ⟨kind, text, a.location⟩) hd)
    | metal =>
      cases MetalKind.parse? a.name.name with
      | none => rfl
      | some kind =>
        show Option.map arguments (Except.toOption (ite ..)) = hear set.arguments (.inr kind, text)
        rw [hear, arguments, Option.isSome_map]
        split
        · rfl
        · next hd => exact congrArg some (arguments_metal (d := ⟨kind, text, a.location⟩) hd)

end DirectiveSet

/-! ### Attributes one by one -/

namespace StartTag

/-- The arguments known after one more attribute, if there has been no fault. -/
def tell (start : StartTag) (known : Option (TalKind ⊕ MetalKind → Option String)) (a : Attribute) :
    Option (TalKind ⊕ MetalKind → Option String) :=
  match start.language? a with
  | none => known
  | some language => known.bind fun known => (DirectiveSet.spoken? language a).bind (DirectiveSet.hear known)

theorem tell_none (start : StartTag) (as : List Attribute) : as.foldl start.tell none = none := by
  induction as with
  | nil => rfl
  | cons a as ih =>
    have hstep : start.tell none a = none := by
      unfold tell
      split <;> rfl
    rw [List.foldl_cons, hstep, ih]

theorem tell_comm (start : StartTag) (known : Option (TalKind ⊕ MetalKind → Option String)) (a b : Attribute) :
    start.tell (start.tell known a) b = start.tell (start.tell known b) a := by
  unfold tell
  cases start.language? a with
  | none => rfl
  | some la =>
    cases start.language? b with
    | none => rfl
    | some lb =>
      cases known with
      | none => rfl
      | some known =>
        dsimp only [Option.bind_some]
        cases DirectiveSet.spoken? la a with
        | none => cases DirectiveSet.spoken? lb b <;> simp
        | some d =>
          cases DirectiveSet.spoken? lb b with
          | none => simp
          | some e => exact DirectiveSet.hear_comm known d e

instance (start : StartTag) : RightCommutative start.tell where
  right_comm := start.tell_comm

theorem arguments_addAttribute (start : StartTag) (set : DirectiveSet) (a : Attribute) :
    (DirectiveSet.addAttribute start set a).toOption.map DirectiveSet.arguments =
      start.tell (some set.arguments) a := by
  unfold DirectiveSet.addAttribute tell
  cases start.language? a with
  | none => rfl
  | some language =>
    dsimp only [Option.bind_some]
    rw [← DirectiveSet.arguments_add]
    cases set.add language a <;> rfl

theorem arguments_addAttributes (start : StartTag) (as : List Attribute) (set : DirectiveSet) :
    (as.foldlM (DirectiveSet.addAttribute start) set).toOption.map DirectiveSet.arguments =
      as.foldl start.tell (some set.arguments) := by
  induction as generalizing set with
  | nil => rfl
  | cons a as ih =>
    rw [List.foldlM_cons, List.foldl_cons, ← arguments_addAttribute]
    cases DirectiveSet.addAttribute start set a with
    | error fault => exact (tell_none start as).symm
    | ok set => exact ih set

end StartTag

namespace DirectiveSet

/-- Putting the directives of TAL in order does not change which one is of a kind. -/
theorem tal?_inOrder (tal : List (Directive TalKind)) (metal : List (Directive MetalKind)) (kind : TalKind) :
    (⟨inOrder tal, metal⟩ : DirectiveSet).tal? kind = tal.find? (·.kind == kind) := by
  -- those of one kind are in order already, and what is in order stays as it is
  have hsorted : (tal.filter (·.kind == kind)).Pairwise fun d e =>
      decide (d.kind.priority ≤ e.kind.priority) := by
    refine List.pairwise_of_forall_mem_list fun d hd e he => ?_
    have hd := (List.mem_filter.1 hd).2
    have he := (List.mem_filter.1 he).2
    rw [beq_iff_eq] at hd he
    rw [hd, he]
    exact decide_eq_true (Nat.le_refl _)
  have hstable : (tal.filter (·.kind == kind)).Sublist (inOrder tal) :=
    List.sublist_mergeSort (by simp; omega) (by simp; omega) hsorted List.filter_sublist
  have hsub : (tal.filter (·.kind == kind)).Sublist ((inOrder tal).filter (·.kind == kind)) := by
    simpa only [List.filter_filter, Bool.and_self] using hstable.filter (·.kind == kind)
  have hperm : ((inOrder tal).filter (·.kind == kind)).Perm (tal.filter (·.kind == kind)) :=
    (List.mergeSort_perm tal _).filter _
  rw [tal?, ← List.head?_filter, ← List.head?_filter, hsub.eq_of_length hperm.length_eq.symm]

theorem rel_of_argument {κ : Type} [DecidableEq κ] {ds es : List (Directive κ)} {kind : κ}
    (h : (ds.find? (·.kind == kind)).map Directive.argument =
      (es.find? (·.kind == kind)).map Directive.argument) :
    Option.Rel Directive.Alike (ds.find? (·.kind == kind)) (es.find? (·.kind == kind)) := by
  cases hd : ds.find? (·.kind == kind) with
  | none =>
    rw [hd] at h
    rw [Option.map_eq_none_iff.1 h.symm]
    exact .none
  | some d =>
    rw [hd] at h
    obtain ⟨e, he, hargument⟩ := Option.map_eq_some_iff.1 h.symm
    have hdk := List.find?_some hd
    have hek := List.find?_some he
    rw [beq_iff_eq] at hdk hek
    rw [he]
    exact .some ⟨hdk.trans hek.symm, hargument.symm⟩

theorem alike_of_arguments {s t : DirectiveSet} (h : s.arguments = t.arguments) : s.Alike t :=
  ⟨fun kind => rel_of_argument (congrFun h (.inl kind)), fun kind => rel_of_argument (congrFun h (.inr kind))⟩

/-- The directives put in order are those collected. -/
theorem arguments_inOrder (set : DirectiveSet) : arguments ⟨inOrder set.tal, set.metal⟩ = set.arguments := by
  funext kind
  cases kind with
  | inl kind => rw [arguments, tal?_inOrder]; rfl
  | inr kind => rfl

/-- A tag with the same attributes in another order has the same directives, or is refused as well. -/
theorem ofTag_together {start other : StartTag} (hname : start.name = other.name)
    (hperm : (start.attributes.map Attribute.unplaced).Perm (other.attributes.map Attribute.unplaced)) :
    Together Alike (ofTag start) (ofTag other) := by
  have htell : start.tell = other.tell := by
    funext known a
    unfold StartTag.tell StartTag.language?
    rw [hname]
  have hplaces (as : List Attribute) : (as.map Attribute.unplaced).foldl other.tell
      (some (arguments ⟨[], []⟩)) = as.foldl other.tell (some (arguments ⟨[], []⟩)) := by
    rw [List.foldl_map]
    rfl
  have hfold := hperm.foldl_eq (f := other.tell) (some (arguments ⟨[], []⟩))
  rw [hplaces, hplaces, ← htell, ← StartTag.arguments_addAttributes, htell,
    ← StartTag.arguments_addAttributes] at hfold
  unfold ofTag
  refine (Together.of_toOption hfold).bind fun s t h => ?_
  have hsome : ∀ kind, (s.tal? kind).isSome = (t.tal? kind).isSome := fun kind => by
    rw [← Option.isSome_map (f := Directive.argument), ← Option.isSome_map (f := Directive.argument)]
    exact congrArg Option.isSome (congrFun h (.inl kind))
  rw [hsome, hsome]
  split
  · exact .error _ _
  · exact .ok (alike_of_arguments (by rw [arguments_inOrder, arguments_inOrder, h]))

end DirectiveSet

end MarkupTemplate
