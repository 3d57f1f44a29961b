import MarkupTemplate.Proofs.Markup.TagTokens

/-!
# Tags are recognised exactly

A tag is cut off a text if and only if the text begins with one of the grammar (`tag?_iff`), so a text begins
with at most one tag, which comes apart in one way. At every place that a tokenizer reaches, the next token is
that tag, of the kind that its ending says, and its name, its attributes and its close are the tag's; where no
tag stands, none is read (`Tokenizer.tags_exact`).
-/

namespace MarkupTemplate

open Text

/-! ### Tags at the front of a text -/

namespace WrittenTag

variable {t u : WrittenTag} {cs rest : List Char}

def IsTag (t : WrittenTag) : Prop :=
  t.IsStart ∨ t.IsEnd

/-- The kind of a tag, by how it begins and ends. -/
def kind (t : WrittenTag) : TokenKind :=
  if t.ending then .endTag else if '/' ∈ t.close then .emptyTag else .startTag

theorem kind_cases (t : WrittenTag) : t.kind = .startTag ∨ t.kind = .emptyTag ∨ t.kind = .endTag := by
  unfold kind
  split
  · exact .inr (.inr rfl)
  · split
    · exact .inr (.inl rfl)
    · exact .inl rfl

theorem IsTag.isClose (h : t.IsTag) : IsClose t.close := by
  rcases h with h | h
  · exact h.close
  · exact h.isClose

theorem IsTag.tag?_append (h : t.IsTag) (rest : List Char) : tag? (t.chars ++ rest) = some (t, rest) := by
  rcases h with h | h
  · exact tag?_chars_append h rest
  · rw [tag?, endTag?_chars_append h]
    rfl

theorem isTag_of_tag? (h : tag? cs = some (t, rest)) : t.IsTag := by
  rcases Option.or_eq_some_iff.1 h with h | ⟨-, h⟩
  · exact .inr (isEnd_of_endTag? h)
  · exact .inl (isStart_of_startTag? h)

theorem tag?_iff : tag? cs = some (t, rest) ↔ t.IsTag ∧ cs = t.chars ++ rest := by
  constructor
  · intro h
    exact ⟨isTag_of_tag? h, tag?_eq_some h⟩
  · rintro ⟨h, rfl⟩
    exact h.tag?_append rest

/-- A text begins with one tag at most, and that comes apart in one way. -/
theorem IsTag.unique (ht : t.IsTag) (hu : u.IsTag) (htcs : t.chars <+: cs) (hucs : u.chars <+: cs) : t = u := by
  obtain ⟨after, rfl⟩ := htcs
  obtain ⟨behind, hbehind⟩ := hucs
  have htag := ht.tag?_append after
  rw [← hbehind, hu.tag?_append behind] at htag
  cases htag
  rfl

/-! ### Tags as tokens -/

theorem IsStart.dropEnd?_isSome (h : t.IsStart) : (dropEnd? ['/', '>'] t.chars).isSome ↔ '/' ∈ t.close := by
  obtain ⟨blanks, hb, hclose⟩ := h.close
  have hslash : '/' ∉ blanks := fun hm => absurd (List.all_eq_true.1 hb '/' hm) (by decide)
  have hchars : t.chars = t.front ++ t.attributes.flatMap WrittenAttribute.chars ++ t.close := rfl
  rcases hclose with hclose | hclose
  · -- before the bracket stands a blank, or else the end of a name or of a value
    obtain ⟨init, d, hinit, -, hd⟩ := (isTight h).append_blanks hb
    have hne : '/' ≠ d := hd.symm
    rw [hchars, hclose, ← List.append_assoc, hinit]
    simp [dropEnd?, dropStart?, hne, hslash]
  · rw [hchars, hclose]
    simp [dropEnd?, dropStart?]

theorem IsStart.classify_chars (h : t.IsStart) : TokenKind.classify t.chars = t.kind := by
  have hlast := h.getLast?
  obtain ⟨c, more, hc, hcs⟩ := h.chars_eq
  rw [hcs] at hlast
  have hkind : t.kind = if '/' ∈ t.close then .emptyTag else .startTag := by
    rw [kind, h.ending]
    rfl
  rw [hkind, hcs, TokenKind.classify_name more hc, hlast, if_pos (beq_self_eq_true _), ← hcs]
  by_cases hslash : '/' ∈ t.close
  · rw [if_pos hslash, if_pos (h.dropEnd?_isSome.2 hslash)]
  · rw [if_neg hslash, if_neg (mt h.dropEnd?_isSome.1 hslash)]

theorem IsTag.classify_chars (h : t.IsTag) : TokenKind.classify t.chars = t.kind := by
  rcases h with h | h
  · exact h.classify_chars
  · rw [h.chars_eq, TokenKind.classify_ending, kind, h.ending]
    rfl

theorem IsEnd.markup?_append (h : t.IsEnd) (rest : List Char) :
    markup? (t.chars ++ rest) = some (t.chars, rest) := by
  have htag := IsTag.tag?_append (.inr h) rest
  rw [h.chars_eq, List.cons_append, List.cons_append] at htag ⊢
  rw [markup?_second _ (by decide), htag, ← h.chars_eq]
  rfl

theorem IsTag.nextToken_append (h : t.IsTag) (rest : List Char) :
    nextToken (t.chars ++ rest) = (t.kind, t.chars, rest) := by
  rw [← h.classify_chars]
  rcases h with h | h
  · exact nextToken_chars_append h rest
  · have hm := h.markup?_append rest
    rw [h.chars_eq, List.cons_append] at hm ⊢
    rw [nextToken, hm]

end WrittenTag

/-! ### Reading the parts of a tag -/

namespace Token

variable {token : Token} {t : WrittenTag}

/-- The token is a tag, and its parts are the tag's; reading whatever looks like a name or an attribute finds the
same, and so does trimming for the close. -/
structure IsReadAs (token : Token) (t : WrittenTag) : Prop where
  text : token.text.toList = t.chars
  kind : token.kind = t.kind
  name : token.tagName? = some (token.part (if t.ending then ['<', '/'] else ['<']) t.name)
  attributes : token.attributes = token.attributesFrom t.front t.attributes
  written : token.attributes.map AttributeToken.written = t.attributes
  close : token.tagClose = String.ofList t.close
  nameIn : token.nameIn? = token.tagName?
  attributesIn : token.attributesIn = token.attributes
  trimmed : token.tagClose = String.ofList (closeOf token.text.toList)

theorem tag?_of_kind (hk : token.kind = t.kind) (h : t.IsTag) (ht : token.text.toList = t.chars) :
    token.tag? = some t := by
  have htag := h.tag?_append []
  rw [List.append_nil] at htag
  have hread : (MarkupTemplate.tag? token.text.toList).map (·.1) = some t := by
    rw [ht, htag]
    rfl
  unfold Token.tag?
  rcases t.kind_cases with hkind | hkind | hkind
  all_goals
    rw [hk, hkind]
    exact hread

theorem attributesIn_of_isEnd (h : t.IsEnd) (ht : token.text.toList = t.chars) : token.attributesIn = [] := by
  have hstops := (h.isClose.endsAttribute []).name
  rw [List.append_nil] at hstops
  have hname := name?_append h.name hstops
  have hfront : tagFront? token.text.toList = some (['<', '/'], t.name, t.close) := by
    rw [ht, h.chars_eq, tagFront?, hname]
    rfl
  rw [attributesIn, hfront]
  exact attributesWithin_close token _ h.isClose

theorem closeOf_of_isTag (h : t.IsTag) : closeOf t.chars = t.close := by
  rcases h with h | h
  · exact closeOf_append (WrittenTag.isTight h) h.close
  · have htight : IsTight ('<' :: '/' :: t.name) := (isTight_of_isName h.name).append ['<', '/']
    have hchars : t.chars = '<' :: '/' :: t.name ++ t.close := h.chars_eq
    rw [hchars]
    exact closeOf_append htight h.isClose

theorem isReadAs_of_isTag (h : t.IsTag) (hk : token.kind = t.kind) (ht : token.text.toList = t.chars) :
    token.IsReadAs t := by
  have htag := tag?_of_kind hk h ht
  have hname : token.tagName? = some (token.part (if t.ending then ['<', '/'] else ['<']) t.name) := by
    rw [tagName?, htag]
    rfl
  have hattributes : token.attributes = token.attributesFrom t.front t.attributes := by
    rw [attributes, htag]
  have hclose : token.tagClose = String.ofList t.close := by
    rw [tagClose, htag]
    rfl
  refine ⟨ht, hk, hname, hattributes, written_attributes htag, hclose, ?_, ?_, ?_⟩
  · rw [nameIn?_of_tagName? hname, hname]
  · rcases h with h | h
    · exact attributesIn_eq h ht htag
    · rw [attributesIn_of_isEnd h ht, hattributes, h.attributes]
      rfl
  · rw [hclose, ht, closeOf_of_isTag h]

end Token

/-! ### Places that a tokenizer reaches -/

namespace Tokenizer

variable {source : String} {filename : Option String} {x y z : Tokenizer} {token : Token} {t : WrittenTag}

/-- The tokenizer comes to stand there, token by token. -/
inductive Reaches (x : Tokenizer) : Tokenizer → Prop
  | refl : Reaches x x
  | step {y z : Tokenizer} {token : Token} (h : Reaches x y) (hnext : y.next? = some (token, z)) : Reaches x z

theorem Reaches.mode_eq (h : x.Reaches z) : z.mode = x.mode := by
  induction h with
  | refl => rfl
  | step _ hnext ih =>
    rw [← ih]
    unfold next? at hnext
    split at hnext
    · cases hnext
    · cases hnext
      rfl

/-- The tokens that are still to come are among those of the whole. -/
theorem Reaches.yields (h : x.Reaches z) {tokens : List Token} (hx : x.Yields tokens) :
    ∃ more, z.Yields more ∧ more <:+ tokens := by
  induction h with
  | refl => exact ⟨tokens, hx, List.suffix_refl _⟩
  | step _ hnext ih =>
    obtain ⟨more, hy, hmore⟩ := ih
    cases hy with
    | done hdone => rw [hnext] at hdone; cases hdone
    | more hhead htail =>
      rw [hnext] at hhead
      cases hhead
      exact ⟨_, htail, (List.suffix_cons ..).trans hmore⟩

theorem mem_scan_of_reaches (hz : (start .markup source filename).Reaches z)
    (hnext : z.next? = some (token, y)) : token ∈ Token.scan source filename := by
  obtain ⟨more, hy, hmore⟩ := hz.yields (yields_ofSource .markup source filename)
  cases hy with
  | done hdone => rw [hnext] at hdone; cases hdone
  | more hhead _ =>
    rw [hnext] at hhead
    cases hhead
    exact hmore.subset (List.mem_cons_self ..)

theorem next?_markup (hz : (start .markup source filename).Reaches z) (hrest : z.rest ≠ []) :
    z.next? = some (⟨(nextToken z.rest).1, String.ofList (nextToken z.rest).2.1, ⟨z.place, z.filename⟩⟩,
      ⟨.markup, z.filename, z.place.after (nextToken z.rest).2.1, (nextToken z.rest).2.2⟩) := by
  have hmode : z.mode = .markup := hz.mode_eq
  have hcut : z.cut = nextToken z.rest := by
    rw [cut, hmode]
  rw [next?, if_neg hrest, hcut, hmode]

/-- Wherever a bracket is next, at most one tag begins there; if one does, it is the next token and comes apart
as that tag alone, and otherwise the next token is no tag. -/
theorem tags_exact (hz : (start .markup source filename).Reaches z) (hlt : z.rest.head? = some '<') :
    ∃ token y, z.next? = some (token, y) ∧ token ∈ Token.scan source filename ∧
      (∀ t u : WrittenTag, t.IsTag → u.IsTag → t.chars <+: z.rest → u.chars <+: z.rest → t = u) ∧
      (∀ t : WrittenTag, t.IsTag → t.chars <+: z.rest → token.IsReadAs t) ∧
      ((∀ t : WrittenTag, t.IsTag → ¬t.chars <+: z.rest) → ¬token.kind.IsTag) := by
  have hrest : z.rest ≠ [] := by
    intro hnil
    rw [hnil] at hlt
    cases hlt
  have hnext := next?_markup hz hrest
  refine ⟨_, _, hnext, mem_scan_of_reaches hz hnext, fun t u => WrittenTag.IsTag.unique, ?_, ?_⟩
  · rintro t ht ⟨behind, hchars⟩
    have hread := ht.nextToken_append behind
    rw [hchars] at hread
    refine Token.isReadAs_of_isTag ht ?_ ?_
    · rw [hread]
    · rw [hread, String.toList_ofList]
  · intro hnone hkind
    obtain ⟨t, behind, htag, -⟩ := tag?_of_nextToken hkind
    obtain ⟨ht, hchars⟩ := WrittenTag.tag?_iff.1 htag
    exact hnone t ht ⟨behind, hchars.symm⟩

/-- A value may hold what would end the tag. -/
def quotedTag : WrittenTag :=
  ⟨false, ['a'], [⟨[' '], ['b'], some ⟨" = ".toList, some '"', "/>".toList⟩⟩, ⟨[' '], ['c'], none⟩], " />".toList⟩

theorem isTag_quotedTag : quotedTag.IsTag := by
  refine .inl ⟨rfl, rfl, ?_, [' '], rfl, .inr rfl⟩
  intro a ha
  rcases List.mem_pair.1 ha with rfl | rfl
  · refine ⟨⟨nofun, rfl⟩, rfl, ?_⟩
    intro v hv
    cases hv
    refine ⟨⟨[' '], [' '], rfl, rfl, rfl⟩, ?_, nofun⟩
    intro q hq
    cases hq
    decide
  · exact ⟨⟨nofun, rfl⟩, rfl, nofun⟩

theorem tags_exact_quoted : ∃ token y,
    Tokenizer.next? ⟨.markup, none, ⟨1, 2, 1⟩, "<a b = \"/>\" c /><br>".toList⟩ = some (token, y) ∧
      token ∈ Token.scan "x<a b = \"/>\" c /><br>" none ∧ token.IsReadAs quotedTag := by
  have hz : (start .markup "x<a b = \"/>\" c /><br>" none).Reaches
      ⟨.markup, none, ⟨1, 2, 1⟩, "<a b = \"/>\" c /><br>".toList⟩ := .step .refl rfl
  obtain ⟨token, y, hnext, hmem, -, hread, -⟩ := tags_exact hz rfl
  exact ⟨token, y, hnext, hmem, hread quotedTag isTag_quotedTag ⟨"<br>".toList, rfl⟩⟩

end Tokenizer

end MarkupTemplate
