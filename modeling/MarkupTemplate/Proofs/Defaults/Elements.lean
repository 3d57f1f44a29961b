import MarkupTemplate.Proofs.Compile.DirectiveFaults
import MarkupTemplate.Proofs.Defaults.Lightening
import MarkupTemplate.Proofs.Reordering.Trees

/-!
# Elements without a directive

What is built for an element is lighter if a directive is taken out of its tag: what the directive wraps around the
element (`DirectiveSet.wrap_lightens`), and its tags and content (`StartTag.core_without`), whether the tag closes
itself, is not closed at all, or has nothing else to be decided when the program runs.
-/

namespace MarkupTemplate

/-! ### Directives that are left -/

/-- The directive of a kind is left as it is or is taken out. -/
def Removal.Omits (r : Removal) (kind : TalKind) (set other : DirectiveSet) : Prop :=
  other.tal? kind = set.tal? kind ∨
    other.tal? kind = none ∧ ∃ d, set.tal? kind = some d ∧ r.kind = kind ∧ r.place = d.location

namespace DirectiveSet

variable {r : Removal} {set other : DirectiveSet} {kind : TalKind} {block block' : Block} {α : Type}
  {parse : String → Location → Except CompileProblem α}

theorem Leaves.tal?_of_ne (h : set.Leaves r other) (hk : kind ≠ r.kind) : other.tal? kind = set.tal? kind := by
  rw [h.tal]
  cases hd : set.tal? kind with
  | none => rfl
  | some d => exact if_neg fun hd' => hk ((kind_of_tal? hd).symm.trans hd'.1)

theorem Leaves.read_of_ne (h : set.Leaves r other) (hk : kind ≠ r.kind) (absent : α) :
    other.read kind absent parse = set.read kind absent parse := by
  unfold read
  rw [h.tal?_of_ne hk]

/-- A directive that is not cut down is left as it is or is taken out. -/
theorem Leaves.omits (h : set.Leaves r other) (hk : kind ≠ .attributes) : r.Omits kind set other := by
  by_cases hr : kind = r.kind
  · rw [Removal.Omits, h.tal]
    cases hd : set.tal? kind with
    | none => exact .inl rfl
    | some d =>
      rw [Option.bind_some, Removal.left?]
      split
      · next hat =>
        refine .inr ⟨?_, d, rfl, hr.symm, hat.2.symm⟩
        cases r with
        | entry => exact absurd hr hk
        | _ => rfl
      · exact .inl rfl
  · exact .inl (h.tal?_of_ne hr)

/-- What a directive wraps around a block is left or falls away. -/
theorem wrapBy_lightens {wrap : α → Block → Block} (h : r.Omits kind set other) (hb : r.Lightens block block')
    (hsame : ∀ a, r.Lightens (wrap a block) (wrap a block'))
    (hgone : ∀ argument a, r.kind = kind → parse argument r.place = .ok a → r.Lightens (wrap a block) block') :
    Follows r.Lightens (set.wrapBy kind parse wrap block) (other.wrapBy kind parse wrap block') := by
  unfold wrapBy read
  obtain hleft | ⟨hnone, d, hd, hkind, hplace⟩ := h
  · rw [hleft]
    cases set.tal? kind with
    | none => exact .ok hb
    | some d =>
      refine fun out hout => ?_
      obtain ⟨a, ha, rfl⟩ := map_eq_ok.1 (CompileProblem.located_ok hout)
      exact ⟨wrap a block', by simp only [ha]; rfl, hsame a⟩
  · rw [hnone, hd]
    refine fun out hout => ?_
    obtain ⟨a, ha, rfl⟩ := map_eq_ok.1 (CompileProblem.located_ok hout)
    exact ⟨block', rfl, hgone d.argument a hkind (hplace ▸ ha)⟩

/-- What the directives wrap around a block is lighter without the one that is taken out. -/
theorem wrap_lightens (h : ∀ kind, kind ≠ .attributes → r.Omits kind set other) (hb : r.Lightens block block') :
    Follows r.Lightens (set.wrap block) (other.wrap block') := by
  unfold wrap
  refine (wrapBy_lightens (h _ (by decide)) hb (fun (name, items) => .loop name items hb) ?_).bind fun b b' hb => ?_
  · rintro argument ⟨name, items⟩ hkind hloop
    have hplace : items.location = r.place := Directive.loop_place hloop
    refine .once name ?_ hb
    cases r with
    | loop => exact congrArg Removal.loop hplace.symm
    | _ => cases hkind
  refine (wrapBy_lightens (h _ (by decide)) hb (fun test => .condition test hb) ?_).bind fun b b' hb => ?_
  · intro argument test hkind htest
    have hplace : test.location = r.place := Directive.expression_place htest
    refine .holds ?_ hb
    cases r with
    | condition => exact congrArg Removal.condition hplace.symm
    | _ => cases hkind
  refine (wrapBy_lightens (h _ (by decide)) hb (fun ds => .inScope ds hb) fun _ _ hkind => ?_).bind
    fun b b' hb => ?_
  · cases r <;> cases hkind
  refine wrapBy_lightens (h _ (by decide)) hb (fun (asMarkup, value) => .onError value asMarkup hb)
    fun _ _ hkind => ?_
  cases r <;> cases hkind

end DirectiveSet

/-! ### Tags and content -/

/-- What is left of the computed attributes of a tag. -/
def Removal.leftOf (r : Removal) (computed : List ComputedAttribute) : List ComputedAttribute :=
  match r with
  | .entry name _ => computed.filter (·.name != name)
  | _ => computed

namespace StartTag

variable {r : Removal} {start : StartTag} {closing : Option EndTag} {set other : DirectiveSet}
  {children children' : Block}

/-- The tag of the plan around the content. -/
def filled (tag : TagPlan) (content? : Option (Directive TalKind)) (children : Block) :
    Except TemplateFault Block :=
  match content? with
  | none => .ok (tag.wrap children)
  | some d => do
    let (asMarkup, value) ← CompileProblem.located d.location (Directive.content d.argument d.location)
    if d.kind = .replace then return [.emit value asMarkup (tag.wrap children)]
    else return tag.wrap [.emit value asMarkup children]

theorem core_eq (start : StartTag) (closing : Option EndTag) (set : DirectiveSet) (children : Block) :
    start.core closing set children = if start.isPlain set then
        .ok (Block.ofOperations (.literal start.text :: children ++ (closing.map fun e => .literal e.text).toList))
      else start.plan closing set >>= fun tag => filled tag set.content? children := rfl

/-- An element without directives is written as its tags around its children. -/
theorem filled_of_isPlain (hplain : start.isPlain set) (htext : start.text =
      "<" ++ start.rawName ++ String.join (start.attributes.map Attribute.source) ++ start.close) :
    (start.plan closing set >>= fun tag => filled tag set.content? children) =
      .ok (Block.ofOperations (.literal start.text :: children ++
        (closing.map fun e => .literal e.text).toList)) := by
  simp only [isPlain, Bool.and_eq_true, Bool.not_eq_true'] at hplain
  obtain ⟨⟨hempty, hstrips⟩, hdirective⟩ := hplain
  have hset : set = ⟨[], []⟩ := by
    obtain ⟨tal, metal⟩ := set
    rw [DirectiveSet.isEmpty, Bool.and_eq_true, List.isEmpty_iff, List.isEmpty_iff] at hempty
    cases hempty.1
    cases hempty.2
    rfl
  have hcarried : start.carried = start.attributes.map Attribute.carried := by
    have hkeep : start.attributes.filter (fun a => !start.strips a) = start.attributes :=
      List.filter_eq_self.2 fun a ha => by simpa using List.any_eq_false.1 hstrips a ha
    rw [carried, hkeep]
  have hplan : start.plan closing set = .ok
      ⟨start.rawName, start.carried, [], start.close, closing.map EndTag.text, .never⟩ := by
    unfold plan
    rw [hdirective, hset]
    simp [DirectiveSet.read, DirectiveSet.tal?, DirectiveSet.content?]
    rfl
  have hsource : StaticAttribute.source ∘ Attribute.carried = Attribute.source := rfl
  rw [hplan, hset]
  show Except.ok (TagPlan.wrap _ _) = _
  rw [TagPlan.wrap, TagPlan.staticStart, hcarried, List.map_map, hsource, Option.map_map, htext]
  rfl

theorem core_eq_filled (htext : start.isPlain set → start.text =
      "<" ++ start.rawName ++ String.join (start.attributes.map Attribute.source) ++ start.close) :
    start.core closing set children = start.plan closing set >>= fun tag => filled tag set.content? children := by
  rw [core_eq]
  split
  · next hplain => exact (filled_of_isPlain hplain (htext hplain)).symm
  · rfl

/-! An element from which nothing is taken out. -/

theorem filled_lightens {tag tag' : TagPlan} (content? : Option (Directive TalKind))
    (hwrap : ∀ xs xs', r.Lightens xs xs' → r.Lightens (tag.wrap xs) (tag'.wrap xs'))
    (hb : r.Lightens children children') :
    Follows r.Lightens (filled tag content? children) (filled tag' content? children') := by
  unfold filled
  cases content? with
  | none => exact .ok (hwrap _ _ hb)
  | some d =>
    refine (Follows.refl (R := Eq) (fun _ => rfl) _).bind ?_
    rintro ⟨asMarkup, value⟩ _ rfl
    dsimp only
    split
    · exact .ok (.emit value asMarkup (hwrap _ _ hb))
    · exact .ok (hwrap _ _ (.emit value asMarkup hb))

theorem core_lightens (hb : r.Lightens children children') :
    Follows r.Lightens (start.core closing set children) (start.core closing set children') := by
  rw [core_eq, core_eq]
  split
  · have hclosing := Removal.Lightens.texts (r := r) (closing.map EndTag.text).toList
    rw [← Option.toList_map, Option.map_map] at hclosing
    exact .ok (((Removal.Lightens.literal start.text).append hb).append hclosing).ofOperations
  · refine (Follows.refl (R := Eq) (fun _ => rfl) _).bind ?_
    rintro tag _ rfl
    exact filled_lightens _ (fun _ _ h => h.wrap) hb

/-! An element from which a directive is taken out. -/

theorem strips_of_isAt {a : Attribute} (h : r.isAt start a) : start.strips a := by
  rw [strips, (isAt_iff.1 h).1]
  rfl

/-- What is taken out is not carried over anyway. -/
theorem carried_without (start : StartTag) (r : Removal) : (start.without r).carried = start.carried := by
  have hstrips : (start.without r).strips = start.strips := strips_of_name (start.name_without r)
  unfold carried
  rw [hstrips, attributes_without, attributesWithout]
  congr 1
  induction start.attributes with
  | nil => rfl
  | cons a attributes ih =>
    rw [List.filterMap_cons]
    by_cases hat : r.isAt start a
    · rw [if_pos hat, List.filter_cons_of_neg (by simp [strips_of_isAt hat])]
      split
      · exact ih
      · next b hb =>
        obtain ⟨argument, -, rfl⟩ := Option.map_eq_some_iff.1 hb
        have hb : start.strips { a with value := some (escapeAttribute argument), quote := some '"' } :=
          strips_of_isAt hat
        rw [List.filter_cons_of_neg (by simp [hb]), ih]
    · rw [if_neg hat, List.filter_cons, List.filter_cons, ih]

/-- The content that is taken out is all that gave content. -/
theorem content?_without (hset : DirectiveSet.ofTag start = .ok set) (hleaves : set.Leaves r other)
    (hc : r.concerns start) (hkind : r.kind = .content ∨ r.kind = .replace) :
    other.content? = none ∧ ∃ d, set.content? = some d ∧ d.location = r.place := by
  obtain ⟨d, hd, hplace⟩ := tal?_of_concerns hset hc
  have hdkind := DirectiveSet.kind_of_tal? hd
  have hnone : other.tal? r.kind = none := by
    rw [hleaves.tal, hd, Option.bind_some, Removal.left?, if_pos ⟨hdkind, hplace⟩]
    cases r with
    | content | replace => rfl
    | _ => obtain ⟨⟨⟩⟩ | ⟨⟨⟩⟩ := hkind
  have hboth := DirectiveSet.content_or_replace hset
  obtain hkind | hkind := hkind <;> rw [hkind] at hd hnone
  · have hreplace := hboth.resolve_left (by rw [hd]; exact Option.some_ne_none d)
    have hother : other.tal? .replace = set.tal? .replace := hleaves.tal?_of_ne (by rw [hkind]; decide)
    refine ⟨?_, d, ?_, hplace⟩
    · rw [DirectiveSet.content?, hnone, hother, hreplace]
      rfl
    · rw [DirectiveSet.content?, hd]
      rfl
  · have hcontent := hboth.resolve_right (by rw [hd]; exact Option.some_ne_none d)
    have hother : other.tal? .content = set.tal? .content := hleaves.tal?_of_ne (by rw [hkind]; decide)
    refine ⟨?_, d, ?_, hplace⟩
    · rw [DirectiveSet.content?, hnone, hother, hcontent]
      rfl
    · rw [DirectiveSet.content?, hd, hcontent]
      rfl

theorem content?_of_ne (hleaves : set.Leaves r other) (hc : r.kind ≠ .content) (hr : r.kind ≠ .replace) :
    other.content? = set.content? := by
  rw [DirectiveSet.content?, DirectiveSet.content?, hleaves.tal?_of_ne hc.symm, hleaves.tal?_of_ne hr.symm]

/-- What is left is computed, and what has been taken out stood at the place. -/
theorem computed_without (hset : DirectiveSet.ofTag start = .ok set) (hleaves : set.Leaves r other)
    (hc : r.concerns start) :
    Follows (fun computed computed' => computed' = r.leftOf computed ∧
        (r.kind = .attributes → ∀ a ∈ computed, a.value.location = r.place))
      (set.read .attributes [] Directive.computedAttributes)
      (other.read .attributes [] Directive.computedAttributes) := by
  by_cases hkind : TalKind.attributes = r.kind
  · obtain ⟨d, hd, hplace⟩ := tal?_of_concerns hset hc
    have hdkind := DirectiveSet.kind_of_tal? hd
    have hother := hleaves.tal r.kind
    rw [hd, Option.bind_some, Removal.left?, if_pos ⟨hdkind, hplace⟩] at hother
    rw [← hkind] at hd hother
    intro computed h
    cases r with
    | entry name place =>
      simp only [DirectiveSet.read, hd] at h
      have hcomputed := CompileProblem.located_ok h
      refine ⟨_, ?_, rfl, fun _ => hplace ▸ Directive.computedAttributes_place hcomputed⟩
      simp only [DirectiveSet.read, hother, Removal.rest?, Option.map_some]
      rw [Directive.computedAttributes_withoutEntries hcomputed]
      rfl
    | _ => cases hkind
  · rw [hleaves.read_of_ne hkind]
    refine fun computed h => ⟨computed, h, ?_, fun hr => absurd hr.symm hkind⟩
    cases r with
    | entry => exact absurd rfl hkind
    | _ => rfl

/-- A tag that was opened up for its content stays open. -/
theorem ends_without (hset : DirectiveSet.ofTag start = .ok set) (hleaves : set.Leaves r other)
    (hc : r.concerns start) (closing : Option EndTag) :
    let opens := start.selfClosing && set.content?.isSome
    let opens' := (start.without r).selfClosing && other.content?.isSome
    (if opens' then ">" else (start.without r).close) = (if opens then ">" else start.close) ∧
      (if opens' then some ("</" ++ (start.without r).rawName ++ ">")
        else (start.endWithout r closing).map EndTag.text) =
      if opens then some ("</" ++ start.rawName ++ ">") else closing.map EndTag.text := by
  have hclose : (start.without r).close = if r.opensUp start then ">" else start.close := by
    rw [without, if_pos hc]
  have hself : (start.without r).selfClosing = (start.selfClosing && !r.opensUp start) := by
    rw [without, if_pos hc]
  intro opens opens'
  by_cases hkind : r.kind = .content ∨ r.kind = .replace
  · obtain ⟨-, d, hd, -⟩ := content?_without hset hleaves hc hkind
    have hup : r.opensUp start = start.selfClosing := by
      obtain hkind | hkind := hkind <;> simp [Removal.opensUp, hc, hkind]
    have hopens : opens = start.selfClosing := by simp [opens, hd]
    have hopens' : opens' = false := by simp [opens', hself, hup]
    rw [hopens, hopens', hclose, endWithout, hup]
    cases start.selfClosing <;> exact ⟨rfl, rfl⟩
  · obtain ⟨hcontent, hreplace⟩ := not_or.1 hkind
    have hup : r.opensUp start = false := by simp [Removal.opensUp, hcontent, hreplace]
    have hopens' : opens' = opens := by
      simp only [opens', opens, hself, hup, content?_of_ne hleaves hcontent hreplace, Bool.not_false, Bool.and_true]
    rw [hopens', hclose, endWithout, hup, rawName_without]
    exact ⟨rfl, rfl⟩

/-- The plan of what is left of a tag: what is computed for an attribute may be taken out. -/
theorem plan_without (hset : DirectiveSet.ofTag start = .ok set) (hleaves : set.Leaves r other)
    (hc : r.concerns start) :
    Follows (fun tag tag' => tag' = { tag with computed := r.leftOf tag.computed } ∧
        (r.kind = .attributes → ∀ a ∈ tag.computed, a.value.location = r.place))
      (start.plan closing set) ((start.without r).plan (start.endWithout r closing) other) := by
  have hdirective : (start.without r).isDirective = start.isDirective := by
    rw [isDirective, isDirective, name_without]
  have homit : other.read .omitTag .never Directive.omission = set.read .omitTag .never Directive.omission :=
    hleaves.read_of_ne (by cases r <;> rintro ⟨⟩) _
  obtain ⟨hclose, hclosing⟩ := ends_without hset hleaves hc closing
  unfold plan
  rw [hdirective, homit]
  refine (computed_without hset hleaves hc).bind ?_
  rintro computed _ ⟨rfl, hplace⟩
  dsimp only
  rw [hclose, hclosing, rawName_without, carried_without]
  split
  · exact .ok ⟨rfl, hplace⟩
  · refine (Follows.refl (R := Eq) (fun _ => rfl) _).bind ?_
    rintro omission _ rfl
    exact .ok ⟨rfl, hplace⟩

theorem isPlain_of_concerns (hset : DirectiveSet.ofTag start = .ok set) (hc : r.concerns start) :
    start.isPlain set = false := by
  obtain ⟨d, hd, -⟩ := tal?_of_concerns hset hc
  rw [DirectiveSet.isPlain_iff hset]
  cases hk : start.isKept with
  | false => rfl
  | true =>
    rw [DirectiveSet.eq_empty_of_isKept hset hk] at hd
    cases hd

/-- Without the content that is taken out, only the tags are left around the children. -/
theorem filled_emitted {tag : TagPlan} {d : Directive TalKind} (hkind : r.kind = .content ∨ r.kind = .replace)
    (hd : d.location = r.place) (hb : r.Lightens children children') :
    Follows r.Lightens (filled tag (some d) children) (filled tag none children') := fun out h => by
  obtain ⟨⟨asMarkup, value⟩, hcontent, h⟩ := bind_eq_ok.1 h
  have hplace : value.location = r.place := (Directive.content_place (CompileProblem.located_ok hcontent)).trans hd
  have hr : r = .content value.location ∨ r = .replace value.location := by
    rw [hplace]
    cases r with
    | content => exact .inl rfl
    | replace => exact .inr rfl
    | _ => obtain ⟨⟨⟩⟩ | ⟨⟨⟩⟩ := hkind
  refine ⟨tag.wrap children', rfl, ?_⟩
  dsimp only at h
  split at h
  · cases h
    exact .emitted hr asMarkup hb.wrap
  · cases h
    exact (Removal.Lightens.emitted hr asMarkup hb).wrap

/-- What is built for an element is lighter without the directive. -/
theorem core_without (hset : DirectiveSet.ofTag start = .ok set) (hleaves : set.Leaves r other)
    (hc : r.concerns start) (hb : r.Lightens children children') :
    Follows r.Lightens (start.core closing set children)
      ((start.without r).core (start.endWithout r closing) other children') := by
  have htext : (start.without r).text = "<" ++ (start.without r).rawName ++
      String.join ((start.without r).attributes.map Attribute.source) ++ (start.without r).close := by
    rw [without, if_pos hc]
  rw [core_eq, isPlain_of_concerns hset hc, if_neg Bool.false_ne_true, core_eq_filled fun _ => htext]
  refine (plan_without hset hleaves hc).bind ?_
  rintro tag _ ⟨rfl, hplace⟩
  by_cases hkind : r.kind = .content ∨ r.kind = .replace
  · obtain ⟨hnone, d, hd, hdplace⟩ := content?_without hset hleaves hc hkind
    have hleft : r.leftOf tag.computed = tag.computed := by
      cases r with
      | entry => obtain ⟨⟨⟩⟩ | ⟨⟨⟩⟩ := hkind
      | _ => rfl
    rw [hnone, hd, hleft]
    exact filled_emitted hkind hdplace hb
  · obtain ⟨hcontent, hreplace⟩ := not_or.1 hkind
    rw [content?_of_ne hleaves hcontent hreplace]
    refine filled_lightens _ (fun xs xs' h => ?_) hb
    cases r with
    | entry name place => exact h.wrap_entry rfl (hplace rfl)
    | _ => exact h.wrap

end StartTag

end MarkupTemplate
