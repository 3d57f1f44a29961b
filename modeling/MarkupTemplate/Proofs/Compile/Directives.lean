import MarkupTemplate.Proofs.Render.Trees

/-!
# The directives of an element

What is known of the directives collected from a tag: none of METAL if no attribute is one, none at all if
nothing is kept from the output, and not both content and a replacement.
-/

namespace MarkupTemplate

namespace DirectiveSet

variable {start : StartTag} {set : DirectiveSet}

theorem ofTag_ok (h : ofTag start = .ok set) :
    ∃ found, start.attributes.foldlM (addAttribute start) ⟨[], []⟩ = .ok found ∧
      set = ⟨inOrder found.tal, found.metal⟩ := by
  unfold ofTag at h
  obtain ⟨found, hf, h⟩ := bind_eq_ok.1 h
  split at h
  · cases h
  · cases h; exact ⟨found, hf, rfl⟩

theorem metal_of_isMacroFree (h : ofTag start = .ok set) (hm : start.IsMacroFree) :
    set.metal = [] := by
  obtain ⟨found, hf, rfl⟩ := ofTag_ok h
  refine foldlM_keeps (P := fun set => set.metal = []) ?_ rfl hf
  intro a ha before after hb hadd
  unfold addAttribute at hadd
  split at hadd
  · rename_i language hl
    have hadd := CompileProblem.located_ok hadd
    unfold add at hadd
    obtain ⟨text, -, hadd⟩ := bind_eq_ok.1 hadd
    cases language with
    | metal => exact absurd hl (hm a ha)
    | tal =>
      simp only at hadd
      split at hadd
      · cases hadd
      · split at hadd <;> cases hadd
        exact hb
  · cases hadd; exact hb

theorem eq_empty_of_isKept (h : ofTag start = .ok set) (hk : start.isKept) : set = ⟨[], []⟩ := by
  obtain ⟨found, hf, rfl⟩ := ofTag_ok h
  have he : found = ⟨[], []⟩ := by
    refine foldlM_keeps (P := fun set => set = ⟨[], []⟩) ?_ rfl hf
    intro a ha before after hb hadd
    have hs : start.strips a = false := by
      simp only [StartTag.isKept, Bool.and_eq_true, Bool.not_eq_true', List.any_eq_false,
        Bool.not_eq_true] at hk
      exact hk.1 a ha
    have hl : start.language? a = none := by
      simp only [StartTag.strips, Bool.or_eq_false_iff, Option.isSome_eq_false_iff,
        Option.isNone_iff_eq_none] at hs
      exact hs.1
    simp only [addAttribute, hl] at hadd
    cases hadd
    exact hb
  rw [he]
  simp [inOrder]

theorem isPlain_iff (h : ofTag start = .ok set) : start.isPlain set = start.isKept := by
  cases hk : start.isKept with
  | true =>
    rw [eq_empty_of_isKept h hk]
    exact hk
  | false =>
    simp only [StartTag.isKept] at hk
    rw [StartTag.isPlain, Bool.and_assoc, hk, Bool.and_false]

theorem tal?_inOrder_eq_none {tal : List (Directive TalKind)} {metal : List (Directive MetalKind)}
    {kind : TalKind} :
    (⟨inOrder tal, metal⟩ : DirectiveSet).tal? kind = none ↔ tal.find? (·.kind == kind) = none := by
  simp only [tal?, inOrder, List.find?_eq_none, (List.mergeSort_perm tal _).mem_iff]

theorem content_or_replace (h : ofTag start = .ok set) :
    set.tal? .content = none ∨ set.tal? .replace = none := by
  unfold ofTag at h
  obtain ⟨found, hf, h⟩ := bind_eq_ok.1 h
  split at h
  · cases h
  · rename_i hb
    cases h
    simp only [tal?_inOrder_eq_none]
    simp only [Bool.and_eq_true, not_and, Bool.not_eq_true, Option.isSome_eq_false_iff,
      Option.isNone_iff_eq_none] at hb
    cases hc : found.tal? .content with
    | none => exact .inl hc
    | some d => exact .inr (hb (by rw [hc]; rfl))

theorem kind_of_tal? {kind : TalKind} {d : Directive TalKind} (h : set.tal? kind = some d) :
    d.kind = kind := by
  have := List.find?_some h
  simpa using this

/-- What replaces an element and what it holds, by the directive that gives its content. -/
theorem said?_of_content? (h : ofTag start = .ok set) {d : Directive TalKind}
    {said : Bool × LocatedExpression} (hc : set.content? = some d)
    (hd : Directive.content d.argument d.location = .ok said) :
    d.kind = .replace ∧ set.said? .replace Directive.content = some said ∧
        set.said? .content Directive.content = none ∨
      d.kind ≠ .replace ∧ set.said? .replace Directive.content = none ∧
        set.said? .content Directive.content = some said := by
  unfold content? at hc
  cases hcontent : set.tal? .content with
  | none =>
    rw [hcontent, Option.none_or] at hc
    exact .inl ⟨kind_of_tal? hc, said?_some hc hd, said?_none hcontent⟩
  | some d' =>
    rw [hcontent, Option.some_or] at hc
    cases hc
    have hr := (content_or_replace h).resolve_left (by rw [hcontent]; simp)
    exact .inr ⟨by rw [kind_of_tal? hcontent]; decide, said?_none hr, said?_some hcontent hd⟩

theorem said?_of_content?_none (hc : set.content? = none) :
    set.said? .replace Directive.content = none ∧ set.said? .content Directive.content = none := by
  obtain ⟨hcontent, hreplace⟩ := Option.or_eq_none_iff.1 hc
  exact ⟨said?_none hreplace, said?_none hcontent⟩

end DirectiveSet

end MarkupTemplate
