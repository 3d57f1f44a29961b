import MarkupTemplate.Proofs.Markup.TagGrammar

/-!
# What kinds of tokens say

The kind of a token is guessed from how the token begins. It says what the token is (`TokenKind.Describes`)
unless a comment or a section of character data is never closed and a bracket stands somewhere behind its
opening mark: then the production of declarations takes the text up to that bracket, and the token is called a
comment or a section all the same (`Overruns`, `Tokenizer.kinds_exact`). What looks like markup and has none of
the forms is malformed, and no source with such a token has a tree.
-/

namespace MarkupTemplate

open Text

/-- The text has the form that the kind names. -/
def TokenKind.Describes (kind : TokenKind) (cs : List Char) : Prop :=
  match kind with
  | .text | .malformed => True
  | .comment => Enclosed "<!--" "-->" cs
  | .cdata => Enclosed "<![CDATA[" "]]>" cs
  | .declaration => Enclosed "<!" ">" cs
  | .xmlDeclaration | .instruction => Enclosed "<?" "?>" cs
  | .startTag | .emptyTag | .endTag => ∃ t : WrittenTag, t.IsTag ∧ t.kind = kind ∧ cs = t.chars

/-- The text has the form of some markup. -/
def IsMarkup (cs : List Char) : Prop :=
  ∃ kind : TokenKind, kind ≠ .text ∧ kind ≠ .malformed ∧ kind.Describes cs

/-- The text begins with the one mark, and the other one never comes. -/
def Unterminated (opening closing : String) (cs : List Char) : Prop :=
  opening.toList <+: cs ∧ ∀ text, Enclosed opening closing text → ¬text <+: cs

/-- A comment or a section of character data that is never closed. -/
def RunsOn (cs : List Char) : Prop :=
  Unterminated "<!--" "-->" cs ∨ Unterminated "<![CDATA[" "]]>" cs

/-- A comment or a section is never closed, but a bracket stands behind its mark. -/
def Overruns (cs : List Char) : Prop :=
  RunsOn cs ∧ '>' ∈ cs

variable {cs text rest : List Char} {t : WrittenTag}

/-! ### Markup and its forms -/

theorem WrittenTag.IsTag.describes (h : t.IsTag) : t.kind.Describes t.chars := by
  have hform : ∃ u : WrittenTag, u.IsTag ∧ u.kind = t.kind ∧ t.chars = u.chars := ⟨t, h, rfl, rfl⟩
  rcases t.kind_cases with hk | hk | hk
  all_goals
    rw [hk] at hform ⊢
    exact hform

theorem WrittenTag.IsTag.isMarkup (h : t.IsTag) : IsMarkup t.chars := by
  refine ⟨t.kind, ?_, ?_, h.describes⟩
  all_goals
    rcases t.kind_cases with hk | hk | hk
    all_goals
      rw [hk]
      exact nofun

theorem MarkupCut.isMarkup (h : MarkupCut cs text rest) : IsMarkup text := by
  cases h with
  | comment he => exact ⟨.comment, nofun, nofun, he⟩
  | cdata he => exact ⟨.cdata, nofun, nofun, he⟩
  | declaration _ _ he => exact ⟨.declaration, nofun, nofun, he⟩
  | instruction he => exact ⟨.instruction, nofun, nofun, he⟩
  | tag t ht htext =>
    rw [htext]
    exact (WrittenTag.isTag_of_tag? ht).isMarkup

theorem WrittenTag.IsTag.bracket_mem (h : t.IsTag) : '>' ∈ t.chars := by
  obtain ⟨blanks, -, hclose | hclose⟩ := h.isClose <;> simp [chars, hclose]

theorem MarkupCut.bracket_mem (h : MarkupCut cs text rest) : '>' ∈ text := by
  have hclosed : ∀ {opening closing : String}, Enclosed opening closing text → '>' ∈ closing.toList →
      '>' ∈ text := by
    rintro opening closing ⟨body, rfl⟩ hmem
    exact List.mem_append_right _ hmem
  cases h with
  | comment he => exact hclosed he (by decide)
  | cdata he => exact hclosed he (by decide)
  | declaration _ _ he => exact hclosed he (by decide)
  | instruction he => exact hclosed he (by decide)
  | tag t ht htext =>
    rw [htext]
    exact (WrittenTag.isTag_of_tag? ht).bracket_mem

theorem markup?_eq_none_iff : markup? cs = none ↔ ∀ text, IsMarkup text → ¬text <+: cs := by
  constructor
  · intro h text htext
    obtain ⟨hcomment, h⟩ := Option.or_eq_none_iff.1 h
    obtain ⟨hcdata, h⟩ := Option.or_eq_none_iff.1 h
    obtain ⟨hdeclaration, h⟩ := Option.or_eq_none_iff.1 h
    obtain ⟨hinstruction, htag⟩ := Option.or_eq_none_iff.1 h
    obtain ⟨kind, hkt, hkm, hform⟩ := htext
    cases kind with
    | text => exact absurd rfl hkt
    | malformed => exact absurd rfl hkm
    | comment => exact delimited?_eq_none_iff.1 hcomment text hform
    | cdata => exact delimited?_eq_none_iff.1 hcdata text hform
    | declaration => exact delimited?_eq_none_iff.1 hdeclaration text hform
    | xmlDeclaration | instruction => exact delimited?_eq_none_iff.1 hinstruction text hform
    | startTag | emptyTag | endTag =>
      obtain ⟨t, ht, -, rfl⟩ := hform
      rintro ⟨rest, rfl⟩
      rw [ht.tag?_append rest] at htag
      cases htag
  · intro h
    cases hm : markup? cs with
    | none => rfl
    | some parts =>
      obtain ⟨text, rest⟩ := parts
      exact absurd ⟨rest, (markup?_eq_some hm).1.symm⟩ (h text (markup?_cases hm).isMarkup)

theorem TokenKind.classify_ne_malformed (cs : List Char) : classify cs ≠ .malformed := by
  unfold classify
  repeat' split
  all_goals exact nofun

theorem kind_eq_malformed_iff :
    (nextToken cs).1 = .malformed ↔ BeginsMarkup cs ∧ ∀ text, IsMarkup text → ¬text <+: cs := by
  constructor
  · intro hk
    cases nextToken_cases cs with
    | markup _ hn =>
      rw [hn] at hk
      exact absurd hk (TokenKind.classify_ne_malformed _)
    | malformed hm hb _ => exact ⟨hb, markup?_eq_none_iff.1 hm⟩
    | text _ hn => rw [hn] at hk; cases hk
  · rintro ⟨hb, hnone⟩
    cases nextToken_cases cs with
    | @markup text rest hcut hn =>
      exact absurd (prefix_of_nextToken hn) (hnone text hcut.isMarkup)
    | malformed _ _ hn => exact hn
    | text hno _ => exact absurd hb hno

/-! ### Tokens that are what they are called -/

/-- A mark without a bracket at the front of the text lies within what is taken as a declaration. -/
theorem opens_of_declaration {mark : List Char} (he : Enclosed "<!" ">" text) (htext : text <+: cs)
    (hmark : mark <+: cs) (hno : '>' ∉ mark) : mark <+: text := by
  rcases List.prefix_or_prefix_of_prefix hmark htext with h | h
  · exact h
  · obtain ⟨body, rfl⟩ := he
    exact absurd (h.subset (by simp)) hno

theorem describes_of_not_overruns (h : ¬Overruns cs) : (nextToken cs).1.Describes (nextToken cs).2.1 := by
  cases nextToken_cases cs with
  | @markup text rest hcut hn =>
    have htext := prefix_of_nextToken hn
    have hbracket : '>' ∈ cs := htext.subset hcut.bracket_mem
    rw [hn]
    show (TokenKind.classify text).Describes text
    cases hcut with
    | comment he =>
      rw [TokenKind.classify_comment he.opens]
      exact he
    | cdata he =>
      rw [TokenKind.classify_cdata he.opens]
      exact he
    | declaration hcomment hcdata he =>
      -- what begins like a comment or a section here is not closed: it would have been taken before
      rcases TokenKind.classify_declaration he.opens with ⟨hopen, -⟩ | ⟨hopen, -⟩ | hk
      · exact absurd ⟨.inl ⟨hopen.trans htext, delimited?_eq_none_iff.1 hcomment⟩, hbracket⟩ h
      · exact absurd ⟨.inr ⟨hopen.trans htext, delimited?_eq_none_iff.1 hcdata⟩, hbracket⟩ h
      · rw [hk]
        exact he
    | instruction he =>
      rcases TokenKind.classify_instruction he.opens with hk | hk
      all_goals
        rw [hk]
        exact he
    | tag t ht hchars =>
      have htag := WrittenTag.isTag_of_tag? ht
      rw [hchars, htag.classify_chars]
      exact htag.describes
  | malformed _ _ hn => rw [hn]; trivial
  | text _ hn => rw [hn]; trivial

theorem RunsOn.delimited?_eq_none (h : RunsOn cs) :
    delimited? "<!--".toList "-->".toList cs = none ∧ delimited? "<![CDATA[".toList "]]>".toList cs = none := by
  rcases h with ⟨hopen, hnone⟩ | ⟨hopen, hnone⟩
  · refine ⟨delimited?_eq_none_iff.2 hnone, ?_⟩
    obtain ⟨rest, rfl⟩ := hopen
    rfl
  · refine ⟨?_, delimited?_eq_none_iff.2 hnone⟩
    obtain ⟨rest, rfl⟩ := hopen
    rfl

/-- An unclosed comment or section is taken as a declaration is, up to the first bracket. -/
theorem nextToken_of_overruns (h : Overruns cs) : ∃ body rest, '>' ∉ body ∧
    nextToken cs = (.classify ("<!".toList ++ body ++ ">".toList), "<!".toList ++ body ++ ">".toList, rest) := by
  obtain ⟨hruns, hbracket⟩ := h
  obtain ⟨hcomment, hcdata⟩ := hruns.delimited?_eq_none
  have hopen : "<!".toList <+: cs := by
    rcases hruns with ⟨hopen, -⟩ | ⟨hopen, -⟩
    · exact .trans ⟨"--".toList, rfl⟩ hopen
    · exact .trans ⟨"[CDATA[".toList, rfl⟩ hopen
  obtain ⟨more, rfl⟩ := hopen
  have hmore : '>' ∈ more := by simpa using hbracket
  obtain ⟨body, rest, rfl, hbody⟩ := List.eq_append_cons_of_mem hmore
  have hdeclaration : delimited? "<!".toList ">".toList ("<!".toList ++ (body ++ '>' :: rest)) =
      some ("<!".toList ++ (body ++ ['>']), rest) := by
    rw [delimited?, dropStart?_append]
    show (splitAfter? ['>'] (body ++ '>' :: rest)).bind _ = _
    rw [splitAfter?_first hbody]
    rfl
  have hm : markup? ('<' :: '!' :: (body ++ '>' :: rest)) = some ("<!".toList ++ body ++ ">".toList, rest) := by
    rw [List.append_assoc]
    show markup? ("<!".toList ++ (body ++ '>' :: rest)) = _
    rw [markup?, hcomment, hcdata, hdeclaration]
    rfl
  refine ⟨body, rest, hbody, ?_⟩
  show nextToken ('<' :: '!' :: (body ++ '>' :: rest)) = _
  rw [nextToken, hm]

/-- The kind goes by the mark that is not closed. -/
theorem kind_of_overruns (h : Overruns cs) :
    ((nextToken cs).1 = .comment ∨ (nextToken cs).1 = .cdata) ∧
      ¬(nextToken cs).1.Describes (nextToken cs).2.1 := by
  obtain ⟨body, rest, -, hn⟩ := nextToken_of_overruns h
  have htext := prefix_of_nextToken hn
  rw [hn]
  rcases h.1 with ⟨hopen, hnone⟩ | ⟨hopen, hnone⟩
  · have hmark := opens_of_declaration ⟨body, rfl⟩ htext hopen (by decide)
    rw [TokenKind.classify_comment hmark]
    exact ⟨.inl rfl, fun hclosed => hnone _ hclosed htext⟩
  · have hmark := opens_of_declaration ⟨body, rfl⟩ htext hopen (by decide)
    rw [TokenKind.classify_cdata hmark]
    exact ⟨.inr rfl, fun hclosed => hnone _ hclosed htext⟩

theorem kind_of_runsOn (h : RunsOn cs) (hno : ¬Overruns cs) : (nextToken cs).1 = .malformed := by
  cases nextToken_cases cs with
  | @markup text rest hcut hn =>
    exact absurd ⟨h, (prefix_of_nextToken hn).subset hcut.bracket_mem⟩ hno
  | malformed _ _ hn => exact hn
  | text hb _ =>
    refine absurd ?_ hb
    rcases h with ⟨⟨rest, rfl⟩, -⟩ | ⟨⟨rest, rfl⟩, -⟩ <;> exact ⟨'!', _, rfl, rfl⟩

variable {source : String} {filename : Option String} {token : Token}

theorem Document.parse_of_malformed (ht : token ∈ Token.scan source filename) (hk : token.kind = .malformed) :
    ∃ fault, parse source filename = .error fault := by
  have hstep : ∀ (token : Token) (b c : Builder), b.step token = .ok c → token.kind ≠ .malformed := by
    intro token b c hstep hk
    unfold Builder.step at hstep
    rw [hk] at hstep
    cases hstep
  cases hp : parse source filename with
  | error fault => exact ⟨fault, rfl⟩
  | ok document =>
    obtain ⟨b, hb, -⟩ := parse_ok hp
    have hnone := foldlM_reaches (D := fun (token : Token) (_ : Builder) => token.kind ≠ .malformed) hstep
      (fun _ _ _ _ _ hkind => hkind) hb
    exact absurd hk (hnone token ht)

namespace Tokenizer

variable {y z : Tokenizer}

/-- Each token has the form that its kind names, unless it is an unclosed comment or section that runs on to a
bracket. Malformed is what looks like markup and has no such form at its front, and then the source has no
tree. -/
theorem kinds_exact (hz : (start .markup source filename).Reaches z) (hnext : z.next? = some (token, y)) :
    (token.kind.Describes token.text.toList ↔ ¬Overruns z.rest) ∧
      (Overruns z.rest → (token.kind = .comment ∨ token.kind = .cdata) ∧
        ∃ body, '>' ∉ body ∧ token.text.toList = "<!".toList ++ body ++ ">".toList) ∧
      (token.kind = .malformed ↔ BeginsMarkup z.rest ∧ ∀ text, IsMarkup text → ¬text <+: z.rest) ∧
      (RunsOn z.rest → ¬Overruns z.rest → token.kind = .malformed) ∧
      (token.kind = .malformed → ∃ fault, Document.parse source filename = .error fault) := by
  have ht := mem_scan_of_reaches hz hnext
  have hrest : z.rest ≠ [] := by
    intro hnil
    rw [next?, if_pos hnil] at hnext
    cases hnext
  rw [next?_markup hz hrest] at hnext
  cases hnext
  refine ⟨⟨fun hform ho => ?_, fun ho => ?_⟩, fun ho => ⟨(kind_of_overruns ho).1, ?_⟩, kind_eq_malformed_iff,
    kind_of_runsOn, Document.parse_of_malformed ht⟩
  · rw [String.toList_ofList] at hform
    exact (kind_of_overruns ho).2 hform
  · rw [String.toList_ofList]
    exact describes_of_not_overruns ho
  · obtain ⟨body, rest, hbody, hn⟩ := nextToken_of_overruns ho
    exact ⟨body, hbody, by rw [hn, String.toList_ofList]⟩

theorem kinds_exact_unclosed : ∃ token y, (start .markup "<!-- a" none).next? = some (token, y) ∧
    token.kind = .malformed ∧ (∀ text, IsMarkup text → ¬text <+: "<!-- a".toList) ∧
      ∃ fault, Document.parse "<!-- a" none = .error fault := by
  have hz : (start .markup "<!-- a" none).Reaches (start .markup "<!-- a" none) := .refl
  obtain ⟨-, -, hmalformed, -, hfails⟩ := kinds_exact hz rfl
  refine ⟨_, _, rfl, rfl, ?_⟩
  exact ⟨(hmalformed.1 rfl).2, hfails rfl⟩

/-- A comment that is never closed is read as a comment up to the first bracket, and there is a tree. -/
theorem comment_of_unclosed : ∃ token y document, (start .markup "<!-- a > b" none).next? = some (token, y) ∧
    token.kind = .comment ∧ ¬"-->".toList <:+ token.text.toList ∧
      Document.parse "<!-- a > b" none = .ok document := by
  have hp : (Document.parse "<!-- a > b" none).toOption.isSome := by decide +kernel
  cases hparse : Document.parse "<!-- a > b" none with
  | error fault => rw [hparse] at hp; cases hp
  | ok document => exact ⟨_, _, document, rfl, rfl, by decide, rfl⟩

end Tokenizer

end MarkupTemplate
