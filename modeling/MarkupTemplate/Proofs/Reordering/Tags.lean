import MarkupTemplate.Proofs.Markup.TagGrammar
import MarkupTemplate.Proofs.Markup.Builder
import MarkupTemplate.Proofs.Reordering.Trees

/-!
# Tags with directives at other places

`WrittenTag.Reorders` says that a tag has the attributes of another one, and that those that are no directives
have kept their order; each attribute goes with the blanks before it. What a directive is depends on the scope
that the tag opens, and that is the same for both, since declarations of namespaces are no directives. So the
tags are read as start tags that are alike, or neither is read (`startTag_together`).
-/

namespace MarkupTemplate

open NamespaceScope (declared?)

/-! ### Directives among written attributes -/

/-- The language of the namespace that a written name belongs to, if the scope binds it. -/
def NamespaceScope.language? (scope : NamespaceScope) (name : List Char) : Option DirectiveLanguage :=
  (scope.resolve (String.ofList name)).toOption.bind QName.language?

/-- The scope binds the prefix of the name, if it has one. -/
def NamespaceScope.Binds (scope : NamespaceScope) (name : List Char) : Prop :=
  ∃ q, scope.resolve (String.ofList name) = .ok q

/-- Name and value of an attribute, as it may declare a namespace. -/
def WrittenAttribute.binding (a : WrittenAttribute) : String × String :=
  (String.ofList a.name, (a.value.map fun v => String.ofList v.text).getD "")

namespace WrittenTag

/-- The scope that the tag opens. -/
def opens (v : WrittenTag) (parent : NamespaceScope) : NamespaceScope :=
  parent.child (v.attributes.map WrittenAttribute.binding)

/-- The attribute is a directive in the tag: it belongs to a namespace of directives, or it has no prefix and
the tag does. What declares a namespace is no directive. -/
def isDirective (v : WrittenTag) (parent : NamespaceScope) (a : WrittenAttribute) : Bool :=
  (declared? (String.ofList a.name)).isNone &&
    (((v.opens parent).language? a.name).isSome ||
      !a.name.contains ':' && ((v.opens parent).language? v.name).isSome)

/-- The tag `w` is `v` with its directives at other places among the attributes. -/
structure Reorders (parent : NamespaceScope) (v w : WrittenTag) : Prop where
  ending : v.ending = w.ending
  name : v.name = w.name
  close : v.close = w.close
  attributes : v.attributes.Perm w.attributes
  others : v.attributes.filter (fun a => !v.isDirective parent a) =
    w.attributes.filter fun a => !v.isDirective parent a

end WrittenTag

/-! ### Reading written attributes -/

/-- The attribute in a scope, at no place. -/
def WrittenAttribute.read (scope : NamespaceScope) (a : WrittenAttribute) : Attribute where
  name := (scope.resolve (String.ofList a.name)).toOption.getD default
  rawName := String.ofList a.name
  leading := String.ofList a.leading
  equals := a.value.map fun v => String.ofList v.equals
  value := a.value.map fun v => String.ofList v.text
  quote := a.value.bind (·.quote)
  location := .nowhere

/-- The start tag is a written tag, its names resolved in a scope. -/
structure StartTag.IsReadIn (start : StartTag) (scope : NamespaceScope) (v : WrittenTag) : Prop where
  name : scope.resolve (String.ofList v.name) = .ok start.name
  rawName : start.rawName = String.ofList v.name
  attributes : start.attributes.map Attribute.unplaced = v.attributes.map (WrittenAttribute.read scope)
  close : start.close = String.ofList v.close
  text : start.text = String.ofList v.chars
  selfClosing : start.selfClosing = (v.kind == .emptyTag)

/-- The scope binds every prefix in the tag. -/
def WrittenTag.IsBound (v : WrittenTag) (scope : NamespaceScope) : Prop :=
  (∀ a ∈ v.attributes, scope.Binds a.name) ∧ scope.Binds v.name

section Reading

variable {token : Token} {parent scope : NamespaceScope} {v : WrittenTag}

theorem resolveName_cases (scope : NamespaceScope) (name : Token) (cs : List Char)
    (h : name.text = String.ofList cs) :
    (∃ q, scope.resolve (String.ofList cs) = .ok q ∧ resolveName scope name = .ok q) ∨
      ¬scope.Binds cs ∧ ∃ fault, resolveName scope name = .error fault := by
  unfold resolveName NamespaceScope.Binds
  rw [h]
  cases scope.resolve (String.ofList cs) with
  | ok q => exact .inl ⟨q, rfl, rfl⟩
  | error front => exact .inr ⟨by simp, _, rfl⟩

theorem resolveAttribute_cases (token : Token) (scope : NamespaceScope) (before : List Char)
    (a : WrittenAttribute) :
    (∃ b, resolveAttribute scope (token.attributeAt before a) = .ok b ∧ scope.Binds a.name ∧
      b.unplaced = a.read scope) ∨
      ¬scope.Binds a.name ∧ ∃ fault, resolveAttribute scope (token.attributeAt before a) = .error fault := by
  unfold resolveAttribute
  rcases resolveName_cases scope (token.attributeAt before a).name a.name rfl with ⟨q, hq, hr⟩ | ⟨hn, fault, hr⟩
  · rw [hr]
    refine .inl ⟨_, rfl, ⟨q, hq⟩, ?_⟩
    simp only [Attribute.unplaced, WrittenAttribute.read, hq, Token.attributeAt, Token.part, Option.map_map,
      Except.toOption, Option.getD_some]
    rfl
  · rw [hr]
    exact .inr ⟨hn, fault, rfl⟩

theorem resolveAttributes_cases (token : Token) (scope : NamespaceScope) (before : List Char)
    (as : List WrittenAttribute) :
    (∃ bs, (token.attributesFrom before as).mapM (resolveAttribute scope) = .ok bs ∧
      (∀ a ∈ as, scope.Binds a.name) ∧ bs.map Attribute.unplaced = as.map (WrittenAttribute.read scope)) ∨
      (¬∀ a ∈ as, scope.Binds a.name) ∧
        ∃ fault, (token.attributesFrom before as).mapM (resolveAttribute scope) = .error fault := by
  induction as generalizing before with
  | nil => exact .inl ⟨[], rfl, List.forall_mem_nil _, rfl⟩
  | cons a as ih =>
    rw [Token.attributesFrom, List.mapM_cons, List.forall_mem_cons]
    rcases resolveAttribute_cases token scope before a with ⟨b, hb, hbinds, hread⟩ | ⟨hn, fault, hb⟩
    · simp only [hb, bind, Except.bind]
      rcases ih (before ++ a.chars) with ⟨bs, hbs, hall, hreads⟩ | ⟨hn, fault, hbs⟩
      · rw [hbs]
        exact .inl ⟨b :: bs, rfl, ⟨hbinds, hall⟩, by rw [List.map_cons, List.map_cons, hread, hreads]⟩
      · rw [hbs]
        exact .inr ⟨fun h => hn h.2, fault, rfl⟩
    · simp only [hb, bind, Except.bind]
      exact .inr ⟨fun h => hn h.1, fault, rfl⟩

theorem bindings_attributesFrom (token : Token) (before : List Char) (as : List WrittenAttribute) :
    (token.attributesFrom before as).map (fun a => (a.name.text, (a.value.map Token.text).getD "")) =
      as.map WrittenAttribute.binding := by
  induction as generalizing before with
  | nil => rfl
  | cons a as ih =>
    rw [Token.attributesFrom, List.map_cons, List.map_cons, ih]
    simp only [Token.attributeAt, Token.part, Option.map_map, WrittenAttribute.binding]
    rfl

/-- A tag is read as a start tag if its names are bound where it opens. -/
theorem startTag_cases (hv : v.IsStart) (hk : token.kind = v.kind) (ht : token.text.toList = v.chars)
    (parent : NamespaceScope) :
    (∃ start, startTag token parent = .ok (start, v.opens parent) ∧ v.IsBound (v.opens parent) ∧
      start.IsReadIn (v.opens parent) v ∧ start.location = token.location) ∨
      ¬v.IsBound (v.opens parent) ∧ ∃ fault, startTag token parent = .error fault := by
  have hread := Token.isReadAs_of_isTag (.inl hv) hk ht
  have hopens : openedScope parent token.attributes = v.opens parent := by
    rw [openedScope, hread.attributes, bindings_attributesFrom]
    rfl
  unfold startTag
  rw [hread.name]
  simp only [hopens]
  rw [hread.attributes]
  rcases resolveAttributes_cases token (v.opens parent) v.front v.attributes with
    ⟨as, has, hbinds, hreads⟩ | ⟨hn, fault, has⟩
  · simp only [has, bind, Except.bind]
    rcases resolveName_cases (v.opens parent) (token.part (if v.ending then ['<', '/'] else ['<']) v.name)
      v.name rfl with ⟨q, hq, hname⟩ | ⟨hn, fault, hname⟩
    · rw [hname]
      refine .inl ⟨_, rfl, ⟨hbinds, q, hq⟩, ⟨hq, rfl, hreads, hread.close, ?_, ?_⟩, rfl⟩
      · rw [← ht, String.ofList_toList]
      · dsimp only
        rw [hk]
    · rw [hname]
      exact .inr ⟨fun h => hn h.2, fault, rfl⟩
  · simp only [has, bind, Except.bind]
    exact .inr ⟨fun h => hn h.1, fault, rfl⟩

end Reading

/-! ### Reordering -/

namespace WrittenTag

variable {parent : NamespaceScope} {v w : WrittenTag}

theorem Reorders.isStart (h : v.Reorders parent w) (hv : v.IsStart) : w.IsStart where
  ending := h.ending ▸ hv.ending
  name := h.name ▸ hv.name
  attributes a ha := hv.attributes a (h.attributes.mem_iff.2 ha)
  close := h.close ▸ hv.close

theorem Reorders.kind (h : v.Reorders parent w) : v.kind = w.kind := by
  rw [WrittenTag.kind, WrittenTag.kind, h.ending, h.close]

/-- What directives are filtered out of is the same whatever else is. -/
theorem Reorders.filter (h : v.Reorders parent w) {p : WrittenAttribute → Bool}
    (hp : ∀ a, p a → v.isDirective parent a = false) : v.attributes.filter p = w.attributes.filter p := by
  have hfilter (as : List WrittenAttribute) :
      (as.filter fun a => !v.isDirective parent a).filter p = as.filter p := by
    rw [List.filter_filter]
    refine List.filter_congr fun a _ => ?_
    cases ha : p a with
    | false => rfl
    | true => rw [hp a ha]; rfl
  rw [← hfilter, h.others, hfilter]

theorem Reorders.opens (h : v.Reorders parent w) : v.opens parent = w.opens parent := by
  have hchild (scope : NamespaceScope) (as : List WrittenAttribute) :
      scope.child (as.map WrittenAttribute.binding) =
        scope.child ((as.filter fun a => (declared? (String.ofList a.name)).isSome).map
          WrittenAttribute.binding) := by
    unfold NamespaceScope.child
    rw [List.foldl_map, List.foldl_map, List.foldl_filter]
    congr 1
    funext scope a
    unfold NamespaceScope.declare WrittenAttribute.binding
    dsimp only
    cases declared? (String.ofList a.name) <;> rfl
  rw [WrittenTag.opens, WrittenTag.opens, hchild, h.filter fun a ha => ?_, ← hchild]
  rw [isDirective, ← Option.not_isSome, ha]
  rfl

theorem Reorders.isBound (h : v.Reorders parent w) (scope : NamespaceScope) :
    v.IsBound scope ↔ w.IsBound scope := by
  simp only [IsBound, h.name, h.attributes.mem_iff]

variable {start other : StartTag}

/-- What is a directive of the tag never reaches the output of the start tag read from it. -/
theorem strips_of_isDirective (hs : start.IsReadIn (v.opens parent) v) {a : WrittenAttribute}
    (ha : v.isDirective parent a) : start.strips (a.read (v.opens parent)) := by
  have hlanguage : (start.language? (a.read (v.opens parent))).isSome := by
    have ha := (Bool.and_eq_true_iff.1 ha).2
    unfold StartTag.language?
    cases hname : (a.read (v.opens parent)).name.language? with
    | some language => rfl
    | none =>
      rcases Bool.or_eq_true_iff.1 ha with hown | hunder
      · -- the name is bound, and to a namespace of directives
        obtain ⟨language, hown⟩ := Option.isSome_iff_exists.1 hown
        obtain ⟨q, hq, hlanguage⟩ := Option.bind_eq_some_iff.1 hown
        rw [WrittenAttribute.read, hq, Option.getD_some, hlanguage] at hname
        cases hname
      · obtain ⟨hcolon, hunder⟩ := Bool.and_eq_true_iff.1 hunder
        rw [NamespaceScope.language?, hs.name] at hunder
        have hraw : (a.read (v.opens parent)).rawName.toList.contains ':' = false := by
          simpa only [WrittenAttribute.read, String.toList_ofList, Bool.not_eq_true'] using hcolon
        rw [hraw]
        exact hunder
  rw [StartTag.strips, hlanguage, Bool.true_or]

theorem carried_eq (hs : start.IsReadIn (v.opens parent) w) :
    start.carried = (w.attributes.filter fun a => !start.strips (a.read (v.opens parent))).map
      fun a => (a.read (v.opens parent)).carried := by
  have hplaces : start.carried = ((start.attributes.map Attribute.unplaced).filter
      fun a => !start.strips a).map Attribute.carried := by
    rw [List.filter_map, List.map_map]
    rfl
  rw [hplaces, hs.attributes, List.filter_map, List.map_map]
  rfl

/-- The two tags are read as start tags that are alike. -/
theorem Reorders.alike (h : v.Reorders parent w) (hs : start.IsReadIn (v.opens parent) v)
    (ho : other.IsReadIn (v.opens parent) w) (hoffset : start.location.offset = other.location.offset) :
    start.Alike other where
  name := Except.ok.inj (by rw [← hs.name, ← ho.name, h.name])
  rawName := by rw [hs.rawName, ho.rawName, h.name]
  close := by rw [hs.close, ho.close, h.close]
  selfClosing := by rw [hs.selfClosing, ho.selfClosing, h.kind]
  offset := hoffset
  attributes := by
    rw [hs.attributes, ho.attributes]
    exact h.attributes.map _
  carried := by
    have hname : start.name = other.name := Except.ok.inj (by rw [← hs.name, ← ho.name, h.name])
    rw [carried_eq hs, carried_eq ho, ← StartTag.strips_of_name hname, h.filter fun a ha => ?_]
    cases hd : v.isDirective parent a with
    | false => rfl
    | true =>
      rw [strips_of_isDirective hs hd] at ha
      cases ha
  text hstrips := by
    -- without a directive there is nothing that could stand at another place
    have hnone : ∀ a ∈ v.attributes, (!v.isDirective parent a) = true := by
      intro a ha
      have hmem : a.read (v.opens parent) ∈ start.attributes.map Attribute.unplaced := by
        rw [hs.attributes]
        exact List.mem_map_of_mem ha
      obtain ⟨b, hb, hread⟩ := List.mem_map.1 hmem
      have hb : start.strips (a.read (v.opens parent)) = false := by
        rw [← hread]
        exact Bool.eq_false_iff.2 (List.any_eq_false.1 hstrips b hb)
      cases hd : v.isDirective parent a with
      | false => rfl
      | true =>
        rw [strips_of_isDirective hs hd] at hb
        cases hb
    have hattributes : v.attributes = w.attributes := by
      have hothers := h.others
      rwa [List.filter_eq_self.2 hnone,
        List.filter_eq_self.2 fun a ha => hnone a (h.attributes.mem_iff.2 ha)] at hothers
    rw [hs.text, ho.text, chars, chars, front, front, h.ending, h.name, h.close, hattributes]

end WrittenTag

/-- A tag with its directives at other places is read as a start tag that is alike, in the same scope, or is
refused as well. -/
theorem startTag_together {token other : Token} {parent : NamespaceScope} {v w : WrittenTag}
    (h : v.Reorders parent w) (hv : v.IsStart) (hk : token.kind = v.kind) (ht : token.text.toList = v.chars)
    (hok : other.kind = w.kind) (hot : other.text.toList = w.chars)
    (hoffset : token.location.offset = other.location.offset) :
    Together (fun x x' => x.1.Alike x'.1 ∧ x.2 = x'.2) (startTag token parent) (startTag other parent) := by
  rcases startTag_cases hv hk ht parent with ⟨s, hs, hbound, hread, hplace⟩ | ⟨hn, fault, hs⟩ <;>
    rcases startTag_cases (h.isStart hv) hok hot parent with
      ⟨s', hs', hbound', hread', hplace'⟩ | ⟨hn', fault', hs'⟩
  · rw [hs, hs']
    rw [← h.opens] at hread'
    exact .ok ⟨h.alike hread hread' (by rw [hplace, hplace', hoffset]), h.opens⟩
  · exact absurd ((h.isBound _).1 (h.opens ▸ hbound)) hn'
  · exact absurd ((h.isBound _).2 (h.opens ▸ hbound')) hn
  · rw [hs, hs']
    exact .error _ _

end MarkupTemplate
