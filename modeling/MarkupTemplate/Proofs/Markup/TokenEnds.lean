import MarkupTemplate.Proofs.Markup.TokenKinds

/-!
# Where tokens end

A token that is what its kind says ends where it ends whatever stands behind it: a tag, an instruction and what
is enclosed by marks are closed, and text runs up to a bracket or to the end of the source
(`nextToken_of_isSound`). So a source whose tokens are all sound can be cut at their ends, and its parts be
exchanged for others.
-/

namespace MarkupTemplate

open Text

/-! ### Marks -/

namespace Text

variable {mark cs front rest : List Char}

theorem dropStart?_eq_none_iff : dropStart? mark cs = none ↔ ¬mark <+: cs := by
  constructor
  · rintro h ⟨rest, rfl⟩
    rw [dropStart?_append] at h
    cases h
  · intro h
    cases hd : dropStart? mark cs with
    | none => rfl
    | some rest => exact absurd ⟨rest, (dropStart?_eq_some hd).symm⟩ h

/-- What is cut off behind a mark is cut off whatever follows. -/
theorem splitAfter?_append_other (h : splitAfter? mark (front ++ rest) = some (front, rest))
    (other : List Char) : splitAfter? mark (front ++ other) = some (front, other) := by
  induction front with
  | nil =>
    obtain ⟨body, hbody⟩ := suffix_of_splitAfter? h
    obtain rfl : mark = [] := (List.append_eq_nil_iff.1 hbody.symm).2
    cases other <;> rfl
  | cons c front ih =>
    rw [List.cons_append, splitAfter?] at h ⊢
    split at h
    · next behind hd =>
      cases h
      rw [← List.cons_append, dropStart?_append]
    · next hnone =>
      obtain ⟨found, hmore, hfound⟩ := Option.map_eq_some_iff.1 h
      obtain rfl : found = (front, rest) := Prod.ext (by simpa using congrArg Prod.fst hfound)
        (by simpa using congrArg Prod.snd hfound)
      -- the mark is as long as what is left of the front at most, so that it cannot reach beyond it
      obtain ⟨body, hbody⟩ := suffix_of_splitAfter? hmore
      have hlength : mark.length ≤ (c :: front).length := by
        rw [hbody]
        simp
        omega
      have hother : dropStart? mark (c :: (front ++ other)) = none := by
        refine dropStart?_eq_none_iff.2 fun hp => dropStart?_eq_none_iff.1 hnone ?_
        have hfront : mark <+: c :: front :=
          List.prefix_of_prefix_length_le hp (List.prefix_append (c :: front) other) hlength
        exact hfront.trans (List.prefix_append (c :: front) rest)
      rw [hother, ih hmore]
      rfl

end Text

theorem delimited?_append_other {opening closing text rest : List Char}
    (h : delimited? opening closing (text ++ rest) = some (text, rest)) (other : List Char) :
    delimited? opening closing (text ++ other) = some (text, other) := by
  obtain ⟨more, hmore, h⟩ := Option.bind_eq_some_iff.1 h
  obtain ⟨⟨body, behind⟩, hbody, h⟩ := Option.bind_eq_some_iff.1 h
  cases h
  have hbehind : body ++ rest = more := splitAfter?_append hbody
  rw [delimited?, List.append_assoc, dropStart?_append, Option.bind_eq_bind, Option.bind_some]
  rw [← hbehind] at hbody
  rw [splitAfter?_append_other hbody]
  rfl

/-! ### Markup between marks -/

/-- The token's form is the one that its kind names, and there is one. -/
def TokenKind.IsSound (kind : TokenKind) (cs : List Char) : Prop :=
  kind ≠ .malformed ∧ kind.Describes cs

variable {kind : TokenKind} {cs text rest other : List Char} {opening closing : String}

theorem delimited?_of_not_prefix (closing : List Char) (h : ¬opening.toList <+: cs) :
    delimited? opening.toList closing cs = none := by
  rw [delimited?, dropStart?_eq_none_iff.2 h]
  rfl

/-- What is enclosed by marks and is cut off by them first, is cut off whatever follows. -/
theorem nextToken_of_enclosed (h : nextToken (text ++ rest) = (kind, text, rest))
    (he : Enclosed opening closing text) (hlt : opening.toList.head? = some '<')
    (hfirst : ∀ more found, delimited? opening.toList closing.toList (text ++ more) = some found →
      markup? (text ++ more) = some found) (other : List Char) :
    nextToken (text ++ other) = (kind, text, other) := by
  have hnext : ∀ more found, delimited? opening.toList closing.toList (text ++ more) = some found →
      nextToken (text ++ more) = (.classify found.1, found.1, found.2) := by
    intro more found hd
    have hm := hfirst more found hd
    obtain ⟨after, rfl⟩ := he.opens
    obtain ⟨start, hstart⟩ := List.head?_eq_some_iff.1 hlt
    rw [hstart] at hm ⊢
    simp only [List.cons_append] at hm ⊢
    rw [nextToken, hm]
  cases hd : delimited? opening.toList closing.toList (text ++ rest) with
  | none => exact absurd (List.prefix_append text rest) (delimited?_eq_none_iff.1 hd text he)
  | some found =>
    have hfound := hnext rest found hd
    rw [h] at hfound
    obtain ⟨hk, ht⟩ := Prod.mk.inj hfound
    obtain rfl : (text, rest) = found := ht
    rw [hnext other _ (delimited?_append_other hd other), ← hk]

theorem eq_classify_of_nextToken (h : nextToken cs = (kind, text, rest)) (hk : kind ≠ .text)
    (hm : kind ≠ .malformed) : kind = .classify text := by
  cases nextToken_cases cs with
  | markup _ hn => rw [h] at hn; cases hn; rfl
  | malformed _ _ hn => rw [h] at hn; exact absurd hn hm
  | text _ hn => rw [h] at hn; exact absurd hn hk

/-- Markup that is what its kind says ends where it ends whatever follows. -/
theorem nextToken_of_isSound (h : nextToken (text ++ rest) = (kind, text, rest)) (hs : kind.IsSound text)
    (hk : kind ≠ .text) (other : List Char) : nextToken (text ++ other) = (kind, text, other) := by
  obtain ⟨hm, hform⟩ := hs
  have hclass := eq_classify_of_nextToken h hk hm
  cases kind with
  | text => exact absurd rfl hk
  | malformed => exact absurd rfl hm
  | comment => exact nextToken_of_enclosed h hform rfl (fun more found hd => by rw [markup?, hd]; rfl) other
  | cdata =>
    refine nextToken_of_enclosed h hform rfl (fun more found hd => ?_) other
    have hcomment : delimited? "<!--".toList "-->".toList (text ++ more) = none := by
      obtain ⟨after, rfl⟩ := Enclosed.opens hform
      rfl
    rw [markup?, hcomment, hd]
    rfl
  | declaration =>
    refine nextToken_of_enclosed h hform rfl (fun more found hd => ?_) other
    -- a mark of a comment or a section would stand within the text, which would be called so
    have hnot (mark : String) {kind : TokenKind} (hno : '>' ∉ mark.toList)
        (hcall : mark.toList <+: text → TokenKind.classify text = kind) (hne : kind ≠ .declaration) :
        ¬mark.toList <+: text ++ more := by
      intro hmark
      have hmark := hcall (opens_of_declaration hform (List.prefix_append ..) hmark hno)
      exact hne (hmark.symm.trans hclass.symm)
    have hcomment := delimited?_of_not_prefix "-->".toList
      (hnot "<!--" (by decide) TokenKind.classify_comment (by decide))
    have hcdata := delimited?_of_not_prefix "]]>".toList
      (hnot "<![CDATA[" (by decide) TokenKind.classify_cdata (by decide))
    rw [markup?, hcomment, hcdata, hd]
    rfl
  | xmlDeclaration | instruction =>
    refine nextToken_of_enclosed h hform rfl (fun more found hd => ?_) other
    have hnone : delimited? "<!--".toList "-->".toList (text ++ more) = none ∧
        delimited? "<![CDATA[".toList "]]>".toList (text ++ more) = none ∧
          delimited? "<!".toList ">".toList (text ++ more) = none := by
      obtain ⟨after, rfl⟩ := Enclosed.opens hform
      exact ⟨rfl, rfl, rfl⟩
    rw [markup?, hnone.1, hnone.2.1, hnone.2.2, hd]
    rfl
  | startTag | emptyTag | endTag =>
    obtain ⟨t, ht, hkind, rfl⟩ := hform
    rw [ht.nextToken_append, hkind]

/-! ### Text -/

theorem MarkupCut.beginsMarkup (h : MarkupCut cs text rest) (htext : text <+: cs) : BeginsMarkup cs := by
  have hmark {opening closing : String} {c : Char} (he : Enclosed opening closing text)
      (ho : ∃ more, opening.toList = '<' :: c :: more) (hc : announcesMarkup c) : BeginsMarkup cs := by
    obtain ⟨more, ho⟩ := ho
    obtain ⟨after, rfl⟩ := he.opens.trans htext
    rw [ho]
    exact ⟨c, more ++ after, rfl, hc⟩
  cases h with
  | comment he => exact hmark he ⟨_, rfl⟩ (by decide)
  | cdata he => exact hmark he ⟨_, rfl⟩ (by decide)
  | declaration _ _ he => exact hmark he ⟨_, rfl⟩ (by decide)
  | instruction he => exact hmark he ⟨_, rfl⟩ (by decide)
  | tag t ht hchars =>
    obtain ⟨after, rfl⟩ := htext
    rw [hchars]
    rcases WrittenTag.isTag_of_tag? ht with ht | ht
    · obtain ⟨c, more, hc, hcs⟩ := ht.chars_eq
      rw [hcs]
      exact ⟨c, more ++ after, rfl, by simp [announcesMarkup, hc]⟩
    · rw [ht.chars_eq]
      exact ⟨'/', _, rfl, by decide⟩

theorem MarkupCut.classify_ne_text (h : MarkupCut cs text rest) : TokenKind.classify text ≠ .text := by
  cases h with
  | comment he => rw [TokenKind.classify_comment he.opens]; decide
  | cdata he => rw [TokenKind.classify_cdata he.opens]; decide
  | declaration _ _ he =>
    rcases TokenKind.classify_declaration he.opens with ⟨-, hk⟩ | ⟨-, hk⟩ | hk <;> rw [hk] <;> decide
  | instruction he => rcases TokenKind.classify_instruction he.opens with hk | hk <;> rw [hk] <;> decide
  | tag t ht hchars =>
    rw [hchars, (WrittenTag.isTag_of_tag? ht).classify_chars]
    rcases t.kind_cases with hk | hk | hk <;> rw [hk] <;> decide

theorem beginsMarkup_cons {c : Char} : BeginsMarkup (c :: cs) ↔ c = '<' ∧ cs.head?.any announcesMarkup := by
  constructor
  · rintro ⟨d, rest, hcs, hd⟩
    cases hcs
    exact ⟨rfl, hd⟩
  · rintro ⟨rfl, hd⟩
    cases cs with
    | nil => cases hd
    | cons d cs => exact ⟨d, cs, rfl, hd⟩

/-- What does not look like markup is text up to the next bracket. -/
theorem nextToken_of_not_beginsMarkup {c : Char} (h : ¬BeginsMarkup (c :: cs)) :
    nextToken (c :: cs) = (.text, c :: cs.takeWhile (· != '<'), cs.dropWhile (· != '<')) := by
  by_cases hc : c = '<'
  · subst hc
    have hm : markup? ('<' :: cs) = none := by
      cases hm : markup? ('<' :: cs) with
      | none => rfl
      | some found =>
        obtain ⟨text, rest⟩ := found
        exact absurd ((markup?_cases hm).beginsMarkup ⟨rest, (markup?_eq_some hm).1.symm⟩) h
    rw [nextToken, hm]
    dsimp only
    rw [if_neg fun hb => h (beginsMarkup_cons.2 ⟨rfl, hb⟩)]
  · have hne : (c != '<') = true := by simpa using hc
    unfold nextToken
    split
    · next heq => cases heq; exact absurd rfl hc
    · rw [List.takeWhile_cons, List.dropWhile_cons, if_pos hne, if_pos hne]

/-- Text ends where a bracket or nothing follows. -/
theorem nextToken_of_text (h : nextToken (text ++ rest) = (.text, text, rest)) (hne : text ≠ [])
    (hother : other.head? = rest.head?) : nextToken (text ++ other) = (.text, text, other) := by
  obtain ⟨c, more, rfl⟩ := List.exists_cons_of_ne_nil hne
  rw [List.cons_append] at h ⊢
  have hb : ¬BeginsMarkup (c :: (more ++ rest)) := by
    cases nextToken_cases (c :: (more ++ rest)) with
    | text hb _ => exact hb
    | malformed _ _ hn => rw [h] at hn; cases hn
    | markup hcut hn =>
      rw [h] at hn
      exact absurd (congrArg Prod.fst hn).symm hcut.classify_ne_text
  have hb' : ¬BeginsMarkup (c :: (more ++ other)) := by
    rwa [beginsMarkup_cons, List.head?_append, hother, ← List.head?_append, ← beginsMarkup_cons]
  rw [nextToken_of_not_beginsMarkup hb] at h
  obtain ⟨htake, hdrop⟩ := Prod.mk.inj (Prod.mk.inj h).2
  have hmore : more.all (· != '<') := by
    rw [← (List.cons.inj htake).2]
    exact List.all_takeWhile
  have hstops : Stops (· != '<') other := by
    intro d hd
    rw [hother, ← hdrop] at hd
    have := List.head?_dropWhile_not (· != '<') (more ++ rest)
    rw [hd] at this
    simpa using this
  rw [nextToken_of_not_beginsMarkup hb', takeWhile_of_stops hmore hstops, dropWhile_of_stops hmore hstops]

end MarkupTemplate
