import MarkupTemplate.Proofs.Markup.Productions

/-!
# Tag tokens

A token that opens a tag is a tag of the grammar from its first character to its last
(`Token.isTag_of_mem_scan`), and a tag of the grammar is read as one token that opens it
(`Token.scan_chars`). Taken apart at its name, its attributes and its close, the token is what it was
(`Token.parts_of_scan`); the reading of its attributes that takes whatever looks like one, and the close
that is what trimming leaves behind the last of them, are the parts of the grammar.
-/

namespace MarkupTemplate

open Text

/-! ### Kinds -/

namespace TokenKind

/-- Markup whose second character begins a name, and which ends with a closing bracket, opens a tag. -/
theorem opensTag_classify {c : Char} {rest : List Char} (hc : isNameStart c)
    (hl : ('<' :: c :: rest).getLast? = some '>') : (classify ('<' :: c :: rest)).OpensTag := by
  rw [classify_name rest hc, hl, if_pos (beq_self_eq_true _)]
  split
  · exact .inr rfl
  · exact .inl rfl

end TokenKind

/-! ### Reading a tag as a token -/

namespace WrittenTag

variable {t : WrittenTag} {rest : List Char}

/-- A tag of the grammar begins with a bracket and the first character of its name. -/
theorem IsStart.chars_eq (h : t.IsStart) : ∃ c more, isNameStart c ∧ t.chars = '<' :: c :: more := by
  obtain ⟨ending, name, attributes, close⟩ := t
  obtain rfl : ending = false := h.ending
  have hname : isName name := h.name
  cases name with
  | nil => cases hname
  | cons c name =>
    exact ⟨c, _, (Bool.and_eq_true_iff.1 hname).1, rfl⟩

theorem IsStart.getLast? (h : t.IsStart) : t.chars.getLast? = some '>' := by
  obtain ⟨blanks, -, hc | hc⟩ := h.close <;> simp [chars, hc]

theorem tag?_chars_append (h : t.IsStart) (rest : List Char) : tag? (t.chars ++ rest) = some (t, rest) := by
  obtain ⟨c, more, hc, hcs⟩ := h.chars_eq
  have hend : endTag? (t.chars ++ rest) = none := by
    rw [hcs]
    unfold endTag?
    split
    · next heq =>
      cases heq
      exact absurd hc (by decide)
    · rfl
  rw [tag?, hend, startTag?_chars_append h]
  rfl

theorem markup?_chars_append (h : t.IsStart) (rest : List Char) :
    markup? (t.chars ++ rest) = some (t.chars, rest) := by
  have htag := tag?_chars_append h rest
  obtain ⟨c, more, hc, hcs⟩ := h.chars_eq
  have hne : '!' ≠ c ∧ '?' ≠ c := by
    refine ⟨?_, ?_⟩ <;> rintro rfl <;> exact absurd hc (by decide)
  rw [hcs, List.cons_append, List.cons_append] at htag ⊢
  rw [markup?_second _ hne, htag, ← hcs]
  rfl

/-- A tag of the grammar is a token by itself. -/
theorem nextToken_chars_append (h : t.IsStart) (rest : List Char) :
    nextToken (t.chars ++ rest) = (.classify t.chars, t.chars, rest) := by
  have hm := markup?_chars_append h rest
  obtain ⟨c, more, -, hcs⟩ := h.chars_eq
  rw [hcs, List.cons_append] at hm ⊢
  rw [nextToken, hm]

theorem IsStart.opensTag (h : t.IsStart) : (TokenKind.classify t.chars).OpensTag := by
  have hl := h.getLast?
  obtain ⟨c, more, hc, hcs⟩ := h.chars_eq
  rw [hcs] at hl ⊢
  exact TokenKind.opensTag_classify hc hl

end WrittenTag

/-- A token that opens a tag is cut off as one. -/
theorem startTag?_of_nextToken {cs : List Char} (h : (nextToken cs).1.OpensTag) :
    ∃ t rest, startTag? cs = some (t, rest) ∧ (nextToken cs).2 = (t.chars, rest) := by
  obtain ⟨t, rest, ht, hn⟩ := tag?_of_nextToken (.inl h)
  refine ⟨t, rest, ?_, by rw [hn]⟩
  rcases Option.or_eq_some_iff.1 ht with hend | ⟨-, hstart⟩
  · have hchars := (isEnd_of_endTag? hend).chars_eq
    rw [hn, hchars, TokenKind.classify_ending] at h
    rcases h with h | h <;> cases h
  · exact hstart

namespace Token

variable {filename : Option String} {token : Token} {t : WrittenTag}

theorem tag?_of_chars (ho : token.kind.OpensTag) (h : t.IsStart) (ht : token.text.toList = t.chars) :
    token.tag? = some t := by
  have htag := WrittenTag.tag?_chars_append h []
  rw [List.append_nil] at htag
  unfold Token.tag?
  rcases ho with hk | hk <;> rw [hk, ht, htag] <;> rfl

/-- A token that opens a tag is a tag of the grammar. -/
theorem isTag_of_mem_scanFrom (place : Position) (cs : List Char) (ht : token ∈ scanFrom filename place cs)
    (ho : token.kind.OpensTag) : ∃ t, t.IsStart ∧ token.text.toList = t.chars ∧ token.tag? = some t := by
  fun_induction scanFrom filename place cs with
  | case1 => cases ht
  | case2 place c cs next ih =>
    rcases List.mem_cons.1 ht with rfl | ht
    · obtain ⟨t, rest, hs, hn⟩ := startTag?_of_nextToken ho
      have hchars : (String.ofList (nextToken (c :: cs)).2.1).toList = t.chars := by
        rw [String.toList_ofList, hn]
      exact ⟨t, isStart_of_startTag? hs, hchars, tag?_of_chars ho (isStart_of_startTag? hs) hchars⟩
    · exact ih ht

theorem isTag_of_mem_scan {source : String} (ht : token ∈ scan source filename) (ho : token.kind.OpensTag) :
    ∃ t, t.IsStart ∧ token.text.toList = t.chars ∧ token.tag? = some t :=
  isTag_of_mem_scanFrom .start source.toList ht ho

/-- A tag of the grammar is read as one token, which opens it. -/
theorem scan_chars (h : t.IsStart) (filename : Option String) :
    ∃ token : Token, scan (String.ofList t.chars) filename = [token] ∧ token.kind.OpensTag ∧
      token.text.toList = t.chars ∧ token.tag? = some t := by
  have hnext := WrittenTag.nextToken_chars_append h []
  have hopens := h.opensTag
  obtain ⟨c, more, -, hcs⟩ := h.chars_eq
  rw [List.append_nil] at hnext
  refine ⟨⟨.classify t.chars, String.ofList t.chars, ⟨.start, filename⟩⟩, ?_, hopens, ?_, ?_⟩
  · rw [scan, String.toList_ofList, hcs, scanFrom, ← hcs, hnext, scanFrom]
  · exact String.toList_ofList
  · exact tag?_of_chars hopens h String.toList_ofList

end Token

/-! ### Taking a tag apart -/

/-- The attribute that `attributeSource` writes. -/
def writtenAttribute (leading name : String) (equals value : Option String) (quote : Option Char) :
    WrittenAttribute :=
  ⟨leading.toList, name.toList, value.map fun v => ⟨(equals.getD "=").toList, quote, v.toList⟩⟩

theorem attributeSource_eq (leading name : String) (equals value : Option String) (quote : Option Char) :
    attributeSource leading name equals value quote =
      String.ofList (writtenAttribute leading name equals value quote).chars := by
  have hmark : (quote.map Char.toString).getD "" = String.ofList quote.toList := by
    cases quote <;> rfl
  cases value with
  | none => simp [attributeSource, writtenAttribute, WrittenAttribute.chars]
  | some v =>
    have hquoted (equals : List Char) : WrittenValue.quoted ⟨equals, quote, v.toList⟩ =
        quote.toList ++ v.toList ++ quote.toList := by
      unfold WrittenValue.quoted
      cases quote <;> simp
    simp [attributeSource, writtenAttribute, WrittenAttribute.chars, WrittenValue.chars, hquoted, hmark,
      String.append_assoc]

namespace AttributeToken

/-- The attribute as it stands in its tag. -/
def source (a : AttributeToken) : String :=
  attributeSource a.leading a.name.text a.equals (a.value.map Token.text) a.quote

/-- The attribute as it is written. -/
def written (a : AttributeToken) : WrittenAttribute :=
  writtenAttribute a.leading a.name.text a.equals (a.value.map Token.text) a.quote

theorem source_eq (a : AttributeToken) : a.source = String.ofList a.written.chars :=
  attributeSource_eq ..

end AttributeToken

/-- What stands behind a text when its closing brackets, then one slash and then blanks are cut off. -/
def closeOf (cs : List Char) : List Char :=
  let bare := (cs.reverse.dropWhile (· == '>')).reverse
  cs.drop (trimEnd ((dropEnd? ['/'] bare).getD bare)).length

namespace Token

variable {token : Token} {t : WrittenTag}

theorem written_attributeAt (token : Token) (before : List Char) (a : WrittenAttribute) :
    (token.attributeAt before a).written = a := by
  obtain ⟨leading, name, value⟩ := a
  cases value <;> simp [AttributeToken.written, writtenAttribute, attributeAt, part]

theorem written_attributesFrom (token : Token) (before : List Char) (as : List WrittenAttribute) :
    (token.attributesFrom before as).map AttributeToken.written = as := by
  induction as generalizing before with
  | nil => rfl
  | cons a as ih => rw [attributesFrom, List.map_cons, written_attributeAt, ih]

theorem written_attributes (h : token.tag? = some t) :
    token.attributes.map AttributeToken.written = t.attributes := by
  rw [Token.attributes, h]
  exact written_attributesFrom ..

/-- Without a value, an attribute has no equals sign and no quotes. -/
theorem valueless_of_mem {a : AttributeToken} (ha : a ∈ token.attributes) (hv : a.value = none) :
    a.equals = none ∧ a.quote = none := by
  have hfrom : ∀ (before : List Char) (as : List WrittenAttribute), a ∈ token.attributesFrom before as →
      a.equals = none ∧ a.quote = none := by
    intro before as
    induction as generalizing before with
    | nil => nofun
    | cons w as ih =>
      intro ha
      rcases List.mem_cons.1 ha with rfl | ha
      · simp [attributeAt, Option.map_eq_none_iff.1 hv]
      · exact ih _ ha
  unfold Token.attributes at ha
  split at ha
  · exact hfrom _ _ ha
  · cases ha

theorem join_sources (as : List AttributeToken) : String.join (as.map AttributeToken.source) =
    String.ofList ((as.map AttributeToken.written).flatMap WrittenAttribute.chars) := by
  induction as with
  | nil => rfl
  | cons a as ih =>
    rw [List.map_cons, String.join_cons, ih, AttributeToken.source_eq, ← String.ofList_append,
      List.map_cons, List.flatMap_cons]

theorem attributesWithin_close {close : List Char} (token : Token) (before : List Char) (h : IsClose close) :
    token.attributesWithin before close = [] := by
  have htail : ∀ {c : Char} {rest : List Char}, IsClose (c :: rest) → rest = [] ∨ IsClose rest := by
    rintro c rest ⟨blanks, hb, h | h⟩
    · cases blanks with
      | nil => cases h; exact .inl rfl
      | cons b blanks => cases h; exact .inr ⟨blanks, (Bool.and_eq_true_iff.1 hb).2, .inl rfl⟩
    · cases blanks with
      | nil => cases h; exact .inr ⟨[], rfl, .inl rfl⟩
      | cons b blanks => cases h; exact .inr ⟨blanks, (Bool.and_eq_true_iff.1 hb).2, .inr rfl⟩
  fun_induction attributesWithin token before close with
  | case1 => rfl
  | case2 before c rest a behind ha =>
    have hnone := h.looseAttribute? []
    rw [List.append_nil, ha] at hnone
    cases hnone
  | case3 before c rest _ ih =>
    rcases htail h with rfl | h
    · unfold attributesWithin
      rfl
    · exact ih h

/-- Whatever looks like an attribute of a tag is one. -/
theorem attributesWithin_chars {close : List Char} (token : Token) (before : List Char) (hc : IsClose close)
    {as : List WrittenAttribute} (ha : ∀ a ∈ as, a.IsWellFormed) :
    token.attributesWithin before (as.flatMap WrittenAttribute.chars ++ close) =
      token.attributesFrom before as := by
  induction as generalizing before with
  | nil => exact attributesWithin_close token before hc
  | cons a as ih =>
    obtain ⟨hwf, hwfs⟩ := List.forall_mem_cons.1 ha
    have hfollow := endsAttribute_of_flatMap hwfs hc []
    rw [List.append_nil] at hfollow
    have hfirst := looseAttribute?_of_attribute? (WrittenAttribute.attribute?_chars_append hwf hfollow)
    rw [List.flatMap_cons, List.append_assoc, attributesFrom, ← ih (before ++ a.chars) hwfs]
    cases hcs : a.chars ++ (as.flatMap WrittenAttribute.chars ++ close) with
    | nil => rw [hcs] at hfirst; cases hfirst
    | cons c cs =>
      rw [hcs] at hfirst
      conv_lhs => unfold attributesWithin
      split
      · next h => rw [hfirst] at h; cases h; rfl
      · next h => rw [hfirst] at h; cases h

theorem attributesIn_eq (h : t.IsStart) (ht : token.text.toList = t.chars) (htag : token.tag? = some t) :
    token.attributesIn = token.attributes := by
  obtain ⟨ending, name, as, close⟩ := t
  obtain rfl : ending = false := h.ending
  have hname : isName name := h.name
  have hstops := (endsAttribute_of_flatMap h.attributes h.close []).name
  rw [List.append_nil] at hstops
  have hcs : token.text.toList = '<' :: (name ++ (as.flatMap WrittenAttribute.chars ++ close)) := by
    simp [ht, WrittenTag.chars, WrittenTag.front]
  have hread := name?_append hname hstops
  have hfront : tagFront? token.text.toList =
      some (['<'], name, as.flatMap WrittenAttribute.chars ++ close) := by
    rw [hcs]
    unfold tagFront?
    split
    · next heq =>
      -- a slash begins no name
      cases name with
      | nil => cases hname
      | cons c name =>
        cases heq
        cases hname
    · next heq =>
      cases heq
      rw [hread]
      rfl
    · next hne => exact absurd rfl (hne _)
  rw [attributesIn, Token.attributes, hfront, htag]
  exact attributesWithin_chars token _ h.close h.attributes

end Token

/-! ### Trimming a tag -/

section Trimming

variable {cs body close : List Char} {a : WrittenAttribute} {t : WrittenTag}

/-- The text does not end with what a tag's close begins with. -/
def IsTight (cs : List Char) : Prop :=
  ∃ front c, cs = front ++ [c] ∧ isBlank c = false ∧ c ≠ '>' ∧ c ≠ '/'

theorem IsTight.append (h : IsTight cs) (before : List Char) : IsTight (before ++ cs) := by
  obtain ⟨front, c, rfl, hc⟩ := h
  exact ⟨before ++ front, c, (List.append_assoc ..).symm, hc⟩

theorem isTight_of_all {p : Char → Bool} (hp : ∀ c, p c → isBlank c = false ∧ c ≠ '>' ∧ c ≠ '/')
    (hne : cs ≠ []) (hall : cs.all p) : IsTight cs :=
  ⟨cs.dropLast, cs.getLast hne, (List.dropLast_append_getLast hne).symm,
    hp _ (List.all_eq_true.1 hall _ (List.getLast_mem hne))⟩

theorem isTight_of_isName {name : List Char} (h : isName name) : IsTight name := by
  cases name with
  | nil => cases h
  | cons c name =>
    obtain ⟨hc, hname⟩ := Bool.and_eq_true_iff.1 h
    refine isTight_of_all (p := isNameChar) (fun d hd => ⟨isBlank_of_isNameChar hd, ?_, ?_⟩)
      (by simp) ?_
    · rintro rfl
      exact absurd hd (by decide)
    · rintro rfl
      exact absurd hd (by decide)
    · rw [List.all_cons, isNameChar_of_isNameStart hc, hname]
      rfl

theorem WrittenValue.isTight {v : WrittenValue} (h : v.IsWellFormed) : IsTight v.chars := by
  refine IsTight.append ?_ v.equals
  obtain ⟨equals, quote, text⟩ := v
  cases quote with
  | some q => rcases (h.quoted q rfl).1 with rfl | rfl <;> exact ⟨_, _, rfl, by decide⟩
  | none =>
    obtain ⟨hne, hall⟩ := h.bare rfl
    refine isTight_of_all (p := isUnquotedChar) (fun c hc => ?_) hne hall
    simp only [isUnquotedChar, List.all_cons, Bool.and_eq_true, Bool.not_eq_true', bne_iff_ne] at hc
    exact ⟨hc.1, hc.2.2.2.2.1.symm, hc.2.2.2.2.2.2.2.1.symm⟩

theorem WrittenAttribute.isTight (h : a.IsWellFormed) : IsTight a.chars := by
  obtain ⟨leading, name, value⟩ := a
  cases value with
  | none =>
    have := (isTight_of_isName h.name).append leading
    simpa [chars] using this
  | some v => exact (WrittenValue.isTight (h.value v rfl)).append _

/-- What stands before the close of a tag. -/
theorem WrittenTag.isTight (h : t.IsStart) :
    IsTight (t.front ++ t.attributes.flatMap WrittenAttribute.chars) := by
  rcases List.eq_nil_or_concat t.attributes with hnil | ⟨as, a, hlast⟩
  · rw [hnil, List.flatMap_nil, List.append_nil]
    exact (isTight_of_isName h.name).append _
  · have ha : a.IsWellFormed := h.attributes a (by simp [hlast])
    rw [hlast, List.concat_eq_append, List.flatMap_append, ← List.append_assoc]
    have := WrittenAttribute.isTight ha
    simpa using this.append (t.front ++ as.flatMap WrittenAttribute.chars)

theorem trimEnd_append (h : IsTight body) {blanks : List Char} (hb : blanks.all isBlank) :
    trimEnd (body ++ blanks) = body := by
  obtain ⟨front, c, rfl, hc, -⟩ := h
  have hstops : Stops isBlank (c :: front.reverse) := .cons hc
  have hb : blanks.reverse.all isBlank := by rwa [List.all_reverse]
  rw [trimEnd, List.reverse_append, List.reverse_append, List.reverse_singleton, List.singleton_append,
    dropWhile_of_stops hb hstops, List.reverse_cons, List.reverse_reverse]

/-- The last character before the brackets of a close. -/
theorem IsTight.append_blanks (h : IsTight body) {blanks : List Char} (hb : blanks.all isBlank) :
    ∃ init d, body ++ blanks = init ++ [d] ∧ d ≠ '>' ∧ d ≠ '/' := by
  obtain ⟨front, c, hbody, -, hcg, hcs⟩ := h
  rcases List.eq_nil_or_concat blanks with rfl | ⟨more, d, rfl⟩
  · exact ⟨front, c, by rw [hbody, List.append_nil], hcg, hcs⟩
  · have hd : isBlank d := List.all_eq_true.mp hb d (by simp)
    refine ⟨body ++ more, d, by simp, ?_, ?_⟩
    · rintro rfl
      exact absurd hd (by decide)
    · rintro rfl
      exact absurd hd (by decide)

/-- Trimming cuts exactly the close of a tag off. -/
theorem closeOf_append (h : IsTight body) (hc : IsClose close) : closeOf (body ++ close) = close := by
  obtain ⟨blanks, hb, hclose⟩ := hc
  have htrim := trimEnd_append h hb
  obtain ⟨init, d, hlast, hd⟩ := h.append_blanks hb
  have hcut : ∀ bare : List Char, (dropEnd? ['/'] bare).getD bare = body ++ blanks →
      ((body ++ close).reverse.dropWhile (· == '>')).reverse = bare → closeOf (body ++ close) = close := by
    intro bare hbare heq
    rw [closeOf, heq, hbare, htrim, List.drop_left]
  rcases hclose with rfl | rfl
  · refine hcut (body ++ blanks) ?_ ?_
    · have hne : '/' ≠ d := hd.2.symm
      simp [hlast, dropEnd?, dropStart?, hne]
    · rw [← List.append_assoc, hlast]
      simp [hd.1]
  · refine hcut (body ++ blanks ++ ['/']) ?_ ?_
    · simp [dropEnd?, dropStart?]
    · have hassoc : body ++ (blanks ++ ['/', '>']) = body ++ blanks ++ ['/'] ++ ['>'] := by simp
      rw [hassoc]
      simp

end Trimming

namespace Token

variable {token : Token} {t : WrittenTag}

theorem tagClose_eq (h : t.IsStart) (ht : token.text.toList = t.chars) (htag : token.tag? = some t) :
    token.tagClose = String.ofList (closeOf token.text.toList) := by
  have hclose := closeOf_append (WrittenTag.isTight h) h.close
  rw [tagClose, htag, ht, WrittenTag.chars, hclose]
  rfl

/-- The name, the attributes and the close of a tag make it up again. -/
theorem parts_of_tag (h : t.IsStart) (ht : token.text.toList = t.chars) (htag : token.tag? = some t) :
    ∃ name, token.tagName? = some name ∧ token.text =
      "<" ++ name.text ++ String.join (token.attributes.map AttributeToken.source) ++ token.tagClose := by
  have hfront : t.front = '<' :: t.name := by
    rw [WrittenTag.front, h.ending]
    rfl
  refine ⟨token.part ['<'] t.name, ?_, String.toList_inj.1 ?_⟩
  · rw [tagName?, htag, Option.map_some, h.ending]
    rfl
  · rw [join_sources, written_attributes htag, tagClose, htag, ht, WrittenTag.chars, hfront]
    simp [part]

end Token

end MarkupTemplate
