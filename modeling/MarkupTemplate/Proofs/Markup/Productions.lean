import MarkupTemplate.Proofs.Markup.Grammar
import MarkupTemplate.Proofs.Markup.Scan

/-!
# The productions of markup

Comments, sections of character data, declarations and instructions are enclosed by two marks. One of them is
cut off a text exactly if the text begins so (`delimited?_eq_none_iff`). `markup?_cases` says once what each
production has found when markup is cut off, and `nextToken_cases` what a token is that comes next;
`TokenKind.classify` is known on all of it.
-/

namespace MarkupTemplate

open Text

/-! ### Texts between marks -/

namespace Text

variable {mark cs front rest : List Char}

theorem suffix_of_splitAfter? (h : splitAfter? mark cs = some (front, rest)) :
    ∃ body, front = body ++ mark := by
  induction cs generalizing front with
  | nil =>
    unfold splitAfter? at h
    split at h
    · rename_i hmark
      cases h
      exact ⟨[], by rw [List.isEmpty_iff.1 hmark]; rfl⟩
    · cases h
  | cons c cs ih =>
    unfold splitAfter? at h
    split at h
    · cases h
      exact ⟨[], rfl⟩
    · obtain ⟨⟨more, behind⟩, hmore, h⟩ := Option.map_eq_some_iff.1 h
      cases h
      obtain ⟨body, rfl⟩ := ih hmore
      exact ⟨c :: body, rfl⟩

theorem splitAfter?_isSome (mark body rest : List Char) : (splitAfter? mark (body ++ (mark ++ rest))).isSome := by
  induction body with
  | nil =>
    have hmark := dropStart?_append mark rest
    rw [List.nil_append]
    unfold splitAfter?
    split
    · rename_i hnil
      rw [(List.append_eq_nil_iff.1 hnil).1]
      rfl
    · rename_i c cs hcs
      rw [hcs] at hmark
      rw [hmark]
      rfl
  | cons c body ih =>
    rw [List.cons_append]
    unfold splitAfter?
    split
    · rfl
    · rwa [Option.isSome_map]

theorem splitAfter?_first {c : Char} {body : List Char} (h : c ∉ body) (rest : List Char) :
    splitAfter? [c] (body ++ c :: rest) = some (body ++ [c], rest) := by
  induction body with
  | nil => simp [splitAfter?, dropStart?]
  | cons d body ih =>
    obtain ⟨hd, hbody⟩ := not_or.1 (mt List.mem_cons.2 h)
    rw [List.cons_append, splitAfter?, dropStart?, if_neg (by simpa using hd), ih hbody]
    rfl

end Text

/-- The text begins with one mark and ends with another one behind it. -/
def Enclosed (opening closing : String) (cs : List Char) : Prop :=
  ∃ body, cs = opening.toList ++ body ++ closing.toList

section Enclosed

variable {opening closing : String} {cs text rest : List Char}

theorem Enclosed.opens (h : Enclosed opening closing cs) : opening.toList <+: cs := by
  obtain ⟨body, rfl⟩ := h
  rw [List.append_assoc]
  exact List.prefix_append ..

theorem enclosed_of_delimited? (h : delimited? opening.toList closing.toList cs = some (text, rest)) :
    Enclosed opening closing text := by
  obtain ⟨more, -, h⟩ := Option.bind_eq_some_iff.1 h
  obtain ⟨⟨front, behind⟩, hfront, h⟩ := Option.bind_eq_some_iff.1 h
  cases h
  obtain ⟨body, rfl⟩ := suffix_of_splitAfter? hfront
  exact ⟨body, (List.append_assoc ..).symm⟩

theorem delimited?_eq_none_iff : delimited? opening.toList closing.toList cs = none ↔
    ∀ text, Enclosed opening closing text → ¬text <+: cs := by
  constructor
  · rintro h _ ⟨body, rfl⟩ ⟨rest, rfl⟩
    have hsome := splitAfter?_isSome closing.toList body rest
    rw [delimited?, List.append_assoc, List.append_assoc, dropStart?_append] at h
    cases hs : splitAfter? closing.toList (body ++ (closing.toList ++ rest)) with
    | none => rw [hs] at hsome; cases hsome
    | some parts =>
      rw [Option.bind_eq_bind, Option.bind_some, hs] at h
      cases h
  · intro h
    cases hd : delimited? opening.toList closing.toList cs with
    | none => rfl
    | some parts =>
      obtain ⟨text, rest⟩ := parts
      have hcs := (delimited?_eq_some hd).1
      exact absurd ⟨rest, hcs.symm⟩ (h text (enclosed_of_delimited? hd))

end Enclosed

/-! ### Kinds of markup -/

namespace TokenKind

variable {cs : List Char}

theorem dropStart?_second {c d : Char} {start rest : List Char} (h : c ≠ d) :
    dropStart? ('<' :: c :: start) ('<' :: d :: rest) = none := by
  simp [dropStart?, h]

theorem beginsWith_second {s : String} {c d : Char} {start : List Char} (rest : List Char)
    (hs : s.toList = '<' :: c :: start) (h : c ≠ d) : beginsWith s ('<' :: d :: rest) = false := by
  rw [beginsWith, hs, dropStart?_second h]
  rfl

/-- Where no exclamation or question mark follows the bracket, the kind is a tag's. -/
theorem classify_second {c : Char} (rest : List Char) (hc : '!' ≠ c ∧ '?' ≠ c) : classify ('<' :: c :: rest) =
    if beginsWith "</" ('<' :: c :: rest) then .endTag
    else if (dropEnd? ['/', '>'] ('<' :: c :: rest)).isSome then .emptyTag
    else if ('<' :: c :: rest).getLast? == some '>' then .startTag
    else .text := by
  have hcomment := beginsWith_second (s := "<!--") rest rfl hc.1
  have hcdata := beginsWith_second (s := "<![CDATA[") rest rfl hc.1
  have hdeclaration := beginsWith_second (s := "<!") rest rfl hc.1
  have hxml : dropStart? "<?xml".toList ('<' :: c :: rest) = none := dropStart?_second hc.2
  have hinstruction := beginsWith_second (s := "<?") rest rfl hc.2
  rw [classify, hcomment, hcdata, hdeclaration, hxml, hinstruction]
  rfl

theorem classify_ending (rest : List Char) : classify ('<' :: '/' :: rest) = .endTag := by
  have hending : beginsWith "</" ('<' :: '/' :: rest) = true := rfl
  rw [classify_second rest (by decide), hending]
  rfl

theorem classify_name {c : Char} (rest : List Char) (hc : isNameStart c) : classify ('<' :: c :: rest) =
    if (dropEnd? ['/', '>'] ('<' :: c :: rest)).isSome then .emptyTag
    else if ('<' :: c :: rest).getLast? == some '>' then .startTag
    else .text := by
  have hne : '!' ≠ c ∧ '?' ≠ c ∧ '/' ≠ c := by
    refine ⟨?_, ?_, ?_⟩ <;> rintro rfl <;> exact absurd hc (by decide)
  have hending := beginsWith_second (s := "</") rest rfl hne.2.2
  rw [classify_second rest ⟨hne.1, hne.2.1⟩, hending]
  rfl

theorem beginsWith_iff {mark : String} : beginsWith mark cs ↔ mark.toList <+: cs := by
  rw [beginsWith, Option.isSome_iff_exists]
  constructor
  · rintro ⟨rest, h⟩
    exact ⟨rest, (dropStart?_eq_some h).symm⟩
  · rintro ⟨rest, rfl⟩
    exact ⟨rest, dropStart?_append mark.toList rest⟩

theorem classify_comment (h : "<!--".toList <+: cs) : classify cs = .comment := by
  rw [classify, if_pos (beginsWith_iff.2 h)]

theorem classify_cdata (h : "<![CDATA[".toList <+: cs) : classify cs = .cdata := by
  obtain ⟨rest, rfl⟩ := h
  have hcomment : beginsWith "<!--" ("<![CDATA[".toList ++ rest) = false := rfl
  rw [classify, hcomment, if_neg Bool.false_ne_true, if_pos (beginsWith_iff.2 (List.prefix_append ..))]

/-- What begins like a declaration is one unless it begins like a comment or a section as well. -/
theorem classify_declaration (h : "<!".toList <+: cs) :
    "<!--".toList <+: cs ∧ classify cs = .comment ∨ "<![CDATA[".toList <+: cs ∧ classify cs = .cdata ∨
      classify cs = .declaration := by
  by_cases hcomment : "<!--".toList <+: cs
  · exact .inl ⟨hcomment, classify_comment hcomment⟩
  by_cases hcdata : "<![CDATA[".toList <+: cs
  · exact .inr (.inl ⟨hcdata, classify_cdata hcdata⟩)
  refine .inr (.inr ?_)
  rw [classify, if_neg (mt beginsWith_iff.1 hcomment), if_neg (mt beginsWith_iff.1 hcdata),
    if_pos (beginsWith_iff.2 h)]

theorem classify_instruction (h : "<?".toList <+: cs) :
    classify cs = .xmlDeclaration ∨ classify cs = .instruction := by
  obtain ⟨rest, rfl⟩ := h
  have hcomment := beginsWith_second (s := "<!--") (c := '!') (d := '?') rest rfl (by decide)
  have hcdata := beginsWith_second (s := "<![CDATA[") (c := '!') (d := '?') rest rfl (by decide)
  have hdeclaration := beginsWith_second (s := "<!") (c := '!') (d := '?') rest rfl (by decide)
  have hinstruction : beginsWith "<?" ('<' :: '?' :: rest) = true := rfl
  show classify ('<' :: '?' :: rest) = _ ∨ classify ('<' :: '?' :: rest) = _
  rw [classify, hcomment, hcdata, hdeclaration, hinstruction]
  simp only [Bool.false_eq_true, if_false, if_true]
  split
  · exact .inl rfl
  · exact .inr rfl

end TokenKind

theorem markup?_second {c : Char} (rest : List Char) (hc : '!' ≠ c ∧ '?' ≠ c) :
    markup? ('<' :: c :: rest) = (tag? ('<' :: c :: rest)).map fun (tag, rest) => (tag.chars, rest) := by
  have hd (opening closing : List Char) {d : Char} (hd : d ≠ c) :
      delimited? ('<' :: d :: opening) closing ('<' :: c :: rest) = none := by
    rw [delimited?, TokenKind.dropStart?_second hd]
    rfl
  have hcomment : delimited? "<!--".toList "-->".toList ('<' :: c :: rest) = none := hd _ _ hc.1
  have hcdata : delimited? "<![CDATA[".toList "]]>".toList ('<' :: c :: rest) = none := hd _ _ hc.1
  have hdeclaration : delimited? "<!".toList ">".toList ('<' :: c :: rest) = none := hd _ _ hc.1
  have hinstruction : delimited? "<?".toList "?>".toList ('<' :: c :: rest) = none := hd _ _ hc.2
  rw [markup?, hcomment, hcdata, hdeclaration, hinstruction]
  rfl

/-- What has been cut off a text as markup: each production comes after the ones before it have failed. -/
inductive MarkupCut (cs text rest : List Char) : Prop
  | comment (h : Enclosed "<!--" "-->" text)
  | cdata (h : Enclosed "<![CDATA[" "]]>" text)
  | declaration (hcomment : delimited? "<!--".toList "-->".toList cs = none)
      (hcdata : delimited? "<![CDATA[".toList "]]>".toList cs = none) (h : Enclosed "<!" ">" text)
  | instruction (h : Enclosed "<?" "?>" text)
  | tag (t : WrittenTag) (h : tag? cs = some (t, rest)) (ht : text = t.chars)

theorem markup?_cases {cs text rest : List Char} (h : markup? cs = some (text, rest)) :
    MarkupCut cs text rest := by
  rcases Option.or_eq_some_iff.1 h with h | ⟨hcomment, h⟩
  · exact .comment (enclosed_of_delimited? h)
  rcases Option.or_eq_some_iff.1 h with h | ⟨hcdata, h⟩
  · exact .cdata (enclosed_of_delimited? h)
  rcases Option.or_eq_some_iff.1 h with h | ⟨-, h⟩
  · exact .declaration hcomment hcdata (enclosed_of_delimited? h)
  rcases Option.or_eq_some_iff.1 h with h | ⟨-, h⟩
  · exact .instruction (enclosed_of_delimited? h)
  obtain ⟨⟨t, rest⟩, ht, h⟩ := Option.map_eq_some_iff.1 h
  cases h
  exact .tag t ht rfl

/-! ### The next token -/

/-- The text looks like markup. -/
def BeginsMarkup (cs : List Char) : Prop :=
  ∃ c rest, cs = '<' :: c :: rest ∧ announcesMarkup c

/-- What the next token has been cut off as. -/
inductive TokenCut (cs : List Char) : Prop
  | markup {text rest : List Char} (h : MarkupCut cs text rest) (hn : nextToken cs = (.classify text, text, rest))
  | malformed (hm : markup? cs = none) (hb : BeginsMarkup cs) (hn : (nextToken cs).1 = .malformed)
  | text (hb : ¬BeginsMarkup cs) (hn : (nextToken cs).1 = .text)

theorem nextToken_cases (cs : List Char) : TokenCut cs := by
  by_cases hlt : cs.head? = some '<'
  · obtain ⟨rest, rfl⟩ := List.head?_eq_some_iff.1 hlt
    cases hm : markup? ('<' :: rest) with
    | some parts => exact .markup (markup?_cases hm) (by rw [nextToken, hm])
    | none =>
      by_cases hb : rest.head?.any announcesMarkup
      · refine .malformed hm ?_ ?_
        · cases rest with
          | nil => cases hb
          | cons c rest => exact ⟨c, rest, rfl, hb⟩
        · rw [nextToken, hm, if_pos hb]
          dsimp only
          split <;> rfl
      · refine .text ?_ ?_
        · rintro ⟨c, more, hcs, hc⟩
          cases hcs
          exact hb hc
        · rw [nextToken, hm, if_neg hb]
  · refine .text ?_ ?_
    · rintro ⟨c, rest, rfl, -⟩
      exact hlt rfl
    · unfold nextToken
      split
      · exact absurd rfl hlt
      · rfl

theorem prefix_of_nextToken {kind : TokenKind} {cs text rest : List Char}
    (h : nextToken cs = (kind, text, rest)) : text <+: cs := by
  have hcs := nextToken_append cs
  rw [h] at hcs
  exact ⟨rest, hcs⟩

def TokenKind.IsTag (kind : TokenKind) : Prop :=
  kind.OpensTag ∨ kind = .endTag

instance (kind : TokenKind) : Decidable kind.IsTag :=
  inferInstanceAs (Decidable ((_ ∨ _) ∨ _))

theorem tag?_of_nextToken {cs : List Char} (h : (nextToken cs).1.IsTag) :
    ∃ t rest, tag? cs = some (t, rest) ∧ nextToken cs = (.classify t.chars, t.chars, rest) := by
  cases nextToken_cases cs with
  | @markup text rest hcut hn =>
    have hkind : (TokenKind.classify text).IsTag := by
      rw [hn] at h
      exact h
    cases hcut with
    | comment he =>
      rw [TokenKind.classify_comment he.opens] at hkind
      exact absurd hkind (by decide)
    | cdata he =>
      rw [TokenKind.classify_cdata he.opens] at hkind
      exact absurd hkind (by decide)
    | declaration _ _ he =>
      rcases TokenKind.classify_declaration he.opens with ⟨-, hk⟩ | ⟨-, hk⟩ | hk
      all_goals
        rw [hk] at hkind
        exact absurd hkind (by decide)
    | instruction he =>
      rcases TokenKind.classify_instruction he.opens with hk | hk
      all_goals
        rw [hk] at hkind
        exact absurd hkind (by decide)
    | tag t ht htext => exact ⟨t, rest, ht, by rw [hn, htext]⟩
  | malformed _ _ hn =>
    rw [hn] at h
    exact absurd h (by decide)
  | text _ hn =>
    rw [hn] at h
    exact absurd h (by decide)

end MarkupTemplate
