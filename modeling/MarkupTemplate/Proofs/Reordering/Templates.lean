import MarkupTemplate.Proofs.Markup.TokenEnds
import MarkupTemplate.Proofs.Reordering.Documents
import MarkupTemplate.Proofs.Reordering.Programs

/-!
# Templates with directives at other places

If the tokens of a source are sound, the source with directives at other places is cut into the same tokens
with those directives at other places (`said_scan`). So it is compiled to the same program up to the places in
it, or is refused as well (`Program.compile_reordered`). Where a comment or an instruction is not closed, an
attribute that comes to stand elsewhere may close it.
-/

namespace MarkupTemplate

namespace Token

/-- The token is what its kind says: it is closed and not malformed. -/
def IsSound (t : Token) : Prop :=
  t.kind.IsSound t.text.toList

/-- The token without its place. -/
def said (t : Token) : TokenKind × String :=
  (t.kind, t.text)

variable {t u : Token} {rest other : List Char} {parent : NamespaceScope} {filename : Option String}

/-- What stands at the place of a token begins with the same character. -/
theorem Reorders.head?_eq (h : t.Reorders parent u) : u.text.toList.head? = t.text.toList.head? := by
  cases h with
  | same _ _ ht => rw [ht]
  | tag _ ht hu _ => rw [ht.text, hu.text]; rfl

/-- What stands at the place of a token ends where it ends, if the same character follows. -/
theorem Reorders.nextToken (h : t.Reorders parent u)
    (hn : nextToken (t.text.toList ++ rest) = (t.kind, t.text.toList, rest)) (hne : t.text.toList ≠ [])
    (hs : t.IsSound) (hother : other.head? = rest.head?) :
    MarkupTemplate.nextToken (u.text.toList ++ other) = (u.kind, u.text.toList, other) := by
  cases h with
  | tag hv _ hu h =>
    rw [hu.text, hu.kind]
    exact WrittenTag.IsTag.nextToken_append (.inl (h.isStart hv)) other
  | same _ hk ht =>
    rw [← hk, ← ht]
    by_cases htext : t.kind = .text
    · rw [htext] at hn ⊢
      exact nextToken_of_text hn hne hother
    · exact nextToken_of_isSound hn hs htext other

theorem scanFrom_of_nextToken {kind : TokenKind} {cs text : List Char} (hne : text ≠ [])
    (h : MarkupTemplate.nextToken cs = (kind, text, rest)) (place : Position) : scanFrom filename place cs =
      ⟨kind, String.ofList text, ⟨place, filename⟩⟩ :: scanFrom filename (place.after text) rest := by
  cases cs with
  | nil => cases h; exact absurd rfl hne
  | cons c cs => rw [scanFrom, h]

end Token

variable {b : Builder} {us vs : List Token} {cs : List Char} {filename : Option String} {place : Position}

theorem Token.Reorders.of_said {t u v : Token} {parent : NamespaceScope} (h : t.Reorders parent u)
    (hv : u.said = v.said) : t.Reorders parent v := by
  obtain ⟨hk, ht⟩ := Prod.mk.inj hv
  cases h with
  | same ho hkind htext => exact .same ho (hkind.trans hk) (htext.trans ht)
  | tag hv hw hu h => exact .tag hv hw ⟨hk ▸ hu.kind, ht ▸ hu.text⟩ h

/-- The places of the other tokens do not matter. -/
theorem Reordered.of_said {ts : List Token} (h : Reordered b ts us)
    (hv : us.map Token.said = vs.map Token.said) : Reordered b ts vs := by
  induction h generalizing vs with
  | nil b =>
    obtain rfl := List.map_eq_nil_iff.1 hv.symm
    exact .nil b
  | cons ht _ ih =>
    obtain ⟨v, vs, rfl, hsaid, hv⟩ := List.map_eq_cons_iff.1 hv.symm
    exact .cons (ht.of_said hsaid.symm) (ih hv.symm)

theorem Reordered.head?_eq (h : Reordered b (Token.scanFrom filename place cs) us) :
    (us.flatMap fun u => u.text.toList).head? = cs.head? := by
  cases cs with
  | nil =>
    rw [Token.scanFrom] at h
    cases h
    rfl
  | cons c cs =>
    obtain ⟨d, more, htext⟩ := List.exists_cons_of_ne_nil (nextToken_ne_nil (List.cons_ne_nil c cs))
    have hcs := nextToken_append (c :: cs)
    rw [Token.scanFrom, htext] at h
    rw [htext] at hcs
    cases h with
    | cons ht _ =>
      have hhead := ht.head?_eq
      rw [String.toList_ofList] at hhead
      rw [List.flatMap_cons, List.head?_append, hhead, ← hcs]
      rfl

/-- The text of the other tokens is cut into them. -/
theorem said_scanFrom (h : Reordered b (Token.scanFrom filename place cs) us)
    (hs : ∀ t ∈ Token.scanFrom filename place cs, t.IsSound) (place' : Position) :
    (Token.scanFrom filename place' (us.flatMap fun u => u.text.toList)).map Token.said =
      us.map Token.said := by
  induction us generalizing b place cs place' with
  | nil => rw [List.flatMap_nil, Token.scanFrom]
  | cons u us ih =>
    cases cs with
    | nil =>
      rw [Token.scanFrom] at h
      cases h
    | cons c cs =>
      rw [Token.scanFrom] at h hs
      have hne := nextToken_ne_nil (List.cons_ne_nil c cs)
      have hcs := nextToken_append (c :: cs)
      have hn : nextToken (c :: cs) = ((nextToken (c :: cs)).1, (nextToken (c :: cs)).2.1,
        (nextToken (c :: cs)).2.2) := rfl
      generalize (nextToken (c :: cs)).1 = kind at h hs hn
      generalize (nextToken (c :: cs)).2.1 = text at h hs hn hne hcs
      generalize (nextToken (c :: cs)).2.2 = rest at h hs hn hcs
      cases h with
      | cons ht hrest =>
        obtain ⟨hsound, hs⟩ := List.forall_mem_cons.1 hs
        have hcut : nextToken ((String.ofList text).toList ++ rest) =
            (kind, (String.ofList text).toList, rest) := by
          rw [String.toList_ofList, hcs, hn]
        have hnext := ht.nextToken hcut (by rwa [String.toList_ofList]) hsound hrest.head?_eq
        have hu : u.text.toList ≠ [] := by
          have hhead := ht.head?_eq
          rw [String.toList_ofList] at hhead
          intro hnil
          rw [hnil] at hhead
          exact hne (List.head?_eq_none_iff.1 hhead.symm)
        rw [List.flatMap_cons, Token.scanFrom_of_nextToken hu hnext, List.map_cons, List.map_cons, ih hrest hs]
        rw [Token.said, String.ofList_toList]
        rfl

theorem toList_join (us : List Token) :
    (String.join (us.map Token.text)).toList = us.flatMap fun u => u.text.toList := by
  induction us with
  | nil => rfl
  | cons u us ih => rw [List.map_cons, String.join_cons, String.toList_append, ih, List.flatMap_cons]

/-- A source whose tokens are sound, with directives at other places, is cut into its tokens with directives
at other places. -/
theorem said_scan {source : String} (h : Reordered b (Token.scan source filename) us)
    (hs : ∀ t ∈ Token.scan source filename, t.IsSound) :
    (Token.scan (String.join (us.map Token.text)) filename).map Token.said = us.map Token.said := by
  rw [Token.scan, toList_join]
  exact said_scanFrom h hs _

/-- Nothing can stand at another place in a source that is text alone. -/
theorem join_of_text {source : String} (h : Reordered b (Token.ofSource .text source filename) us) :
    String.join (us.map Token.text) = source := by
  have h : Reordered b (Token.scanText source filename) us := h
  unfold Token.scanText at h
  split at h
  · next hempty =>
    cases h
    exact (String.isEmpty_iff.1 hempty).symm
  · cases h with
    | cons ht hrest =>
      cases hrest
      cases ht with
      | same _ _ ht => rw [List.map_singleton, ← ht, String.join_cons, String.join_nil, String.append_empty]
      | @tag v _ _ ht _ _ => rcases v.kind_cases with hk | hk | hk <;> rw [← ht.kind] at hk <;> cases hk

namespace Program

/-- The order of directives does not matter. A source and the source with directives at other places in its
start tags are compiled to the same program up to the places in it, or neither is compiled, if each token of the
source is what its kind says, or at least the other source is cut into the tokens meant. -/
theorem compile_reordered (provider : ResourceProvider) (mode : TemplateMode) (path : Option String)
    {source other : String} {tokens : List Token}
    (h : Reordered .initial (Token.ofSource mode source path) tokens)
    (hother : other = String.join (tokens.map Token.text))
    (hread : (∀ t ∈ Token.ofSource mode source path, t.IsSound) ∨
      (Token.ofSource mode other path).map Token.said = tokens.map Token.said) :
    ((∃ p, compile provider mode ⟨source, path⟩ = .ok p) ↔ ∃ q, compile provider mode ⟨other, path⟩ = .ok q) ∧
      ∀ p q, compile provider mode ⟨source, path⟩ = .ok p → compile provider mode ⟨other, path⟩ = .ok q →
        p.unplaced = q.unplaced := by
  have htogether : Together (Same unplaced) (compile provider mode ⟨source, path⟩)
      (compile provider mode ⟨other, path⟩) := by
    cases mode with
    | text =>
      rw [hother, join_of_text h]
      exact Together.refl (R := Same _) (fun _ => rfl) _
    | markup =>
      have hsaid : (Token.scan other path).map Token.said = tokens.map Token.said := by
        rcases hread with hs | hsaid
        · rw [hother]
          exact said_scan h hs
        · exact hsaid
      have hparse := Document.parse_together (h.of_said hsaid.symm)
      unfold compile
      dsimp only
      generalize Document.parse source path = d at hparse ⊢
      generalize Document.parse other path = d' at hparse ⊢
      cases hparse with
      | error => exact .error _ _
      | ok hd => exact ofDocument_together provider hd path
  exact ⟨htogether.ok_iff, fun p q => htogether.of_ok⟩

/-- A directive to be moved. -/
def contentDirective : WrittenAttribute :=
  ⟨[' '], "tal:content".toList, some ⟨['='], some '"', ['1']⟩⟩

/-- A tag with the directive behind another attribute. -/
def directiveLast (a : WrittenAttribute) : WrittenTag :=
  ⟨false, ['p'], [a, contentDirective], ['>']⟩

/-- The same tag with the directive in front. -/
def directiveFirst (a : WrittenAttribute) : WrittenTag :=
  ⟨false, ['p'], [contentDirective, a], ['>']⟩

theorem reorders_directiveFirst {parent : NamespaceScope} {a : WrittenAttribute} {s t : String}
    (hs : startTag? s.toList = some (directiveLast a, [])) (ht : t.toList = (directiveFirst a).chars)
    (hd : (directiveLast a).isDirective parent contentDirective) (place place' : Location) :
    Token.Reorders parent ⟨.startTag, s, place⟩ ⟨.startTag, t, place'⟩ := by
  have hchars : s.toList = (directiveLast a).chars := (startTag?_eq_some hs).trans (List.append_nil _)
  refine .tag (isStart_of_startTag? hs) ⟨rfl, hchars⟩ ⟨rfl, ht⟩ ⟨rfl, rfl, rfl, .swap .., ?_⟩
  show List.filter _ [a, contentDirective] = List.filter _ [contentDirective, a]
  simp only [List.filter_cons, hd, Bool.not_true, Bool.false_eq_true, if_false, List.filter_nil]

theorem compile_reordered_content : ∃ p q,
    compile (MemoryStore.provider []) .markup ⟨"<p a=\"2\" tal:content=\"1\">y</p>", none⟩ = .ok p ∧
      compile (MemoryStore.provider []) .markup ⟨"<p tal:content=\"1\" a=\"2\">y</p>", none⟩ = .ok q ∧
        p.unplaced = q.unplaced := by
  have hscan : Token.ofSource .markup "<p a=\"2\" tal:content=\"1\">y</p>" none =
      [⟨.startTag, "<p a=\"2\" tal:content=\"1\">", ⟨⟨1, 1, 0⟩, none⟩⟩, ⟨.text, "y", ⟨⟨1, 26, 25⟩, none⟩⟩,
        ⟨.endTag, "</p>", ⟨⟨1, 27, 26⟩, none⟩⟩] := by
    decide +kernel
  have hstart : startTag? "<p a=\"2\" tal:content=\"1\">".toList =
      some (directiveLast ⟨[' '], ['a'], some ⟨['='], some '"', ['2']⟩⟩, []) := by
    decide +kernel
  have h : Reordered .initial (Token.ofSource .markup "<p a=\"2\" tal:content=\"1\">y</p>" none)
      [⟨.startTag, "<p tal:content=\"1\" a=\"2\">", ⟨.start, none⟩⟩, ⟨.text, "y", ⟨.start, none⟩⟩,
        ⟨.endTag, "</p>", ⟨.start, none⟩⟩] := by
    rw [hscan]
    refine .cons ?_ (.cons (.same (by decide) rfl rfl) (.cons (.same (by decide) rfl rfl) (.nil _)))
    exact reorders_directiveFirst hstart rfl (by decide +kernel) _ _
  have hsound : ∀ t ∈ Token.ofSource .markup "<p a=\"2\" tal:content=\"1\">y</p>" none, t.IsSound := by
    have hend : WrittenTag.IsTag ⟨true, ['p'], [], ['>']⟩ := .inr ⟨rfl, rfl, rfl, [], rfl, rfl⟩
    rw [hscan]
    simp only [List.forall_mem_cons]
    exact ⟨⟨by decide, _, .inl (isStart_of_startTag? hstart), rfl, rfl⟩, ⟨by decide, trivial⟩,
      ⟨by decide, _, hend, rfl, rfl⟩, List.forall_mem_nil _⟩
  obtain ⟨hiff, hsame⟩ := compile_reordered (MemoryStore.provider []) .markup none h rfl (.inl hsound)
  have hp : (compile (MemoryStore.provider []) .markup
      ⟨"<p a=\"2\" tal:content=\"1\">y</p>", none⟩).toOption.isSome := by decide +kernel
  obtain ⟨p, hp⟩ := Option.isSome_iff_exists.1 hp
  obtain ⟨q, hq⟩ := hiff.1 ⟨p, eq_ok_of_toOption hp⟩
  exact ⟨p, q, eq_ok_of_toOption hp, hq, hsame p q (eq_ok_of_toOption hp) hq⟩

/-- Where an instruction or a comment is not closed, an attribute that comes to stand behind a directive may
close it: then the tag is part of the instruction or of the comment. -/
theorem compile_of_unclosed :
    (∃ tokens, Reordered .initial (Token.ofSource .markup "<?a <p b=? tal:content=\"1\">" none) tokens ∧
      String.join (tokens.map Token.text) = "<?a <p tal:content=\"1\" b=?>" ∧
      (∀ p, compile (MemoryStore.provider []) .markup ⟨"<?a <p b=? tal:content=\"1\">", none⟩ ≠ .ok p) ∧
      ∃ q, compile (MemoryStore.provider []) .markup ⟨"<?a <p tal:content=\"1\" b=?>", none⟩ = .ok q) ∧
    ∃ tokens p q,
      Reordered .initial (Token.ofSource .markup "<!-- a> <p b-- tal:content=\"1\">" none) tokens ∧
      String.join (tokens.map Token.text) = "<!-- a> <p tal:content=\"1\" b-->" ∧
      compile (MemoryStore.provider []) .markup ⟨"<!-- a> <p b-- tal:content=\"1\">", none⟩ = .ok p ∧
      compile (MemoryStore.provider []) .markup ⟨"<!-- a> <p tal:content=\"1\" b-->", none⟩ = .ok q ∧
      p.unplaced ≠ q.unplaced := by
  constructor
  · have hscan : Token.ofSource .markup "<?a <p b=? tal:content=\"1\">" none =
        [⟨.malformed, "<?a ", ⟨⟨1, 1, 0⟩, none⟩⟩,
          ⟨.startTag, "<p b=? tal:content=\"1\">", ⟨⟨1, 5, 4⟩, none⟩⟩] := by
      decide +kernel
    have hstart : startTag? "<p b=? tal:content=\"1\">".toList =
        some (directiveLast ⟨[' '], ['b'], some ⟨['='], none, ['?']⟩⟩, []) := by
      decide +kernel
    have hfault : (compile (MemoryStore.provider []) .markup
        ⟨"<?a <p b=? tal:content=\"1\">", none⟩).toOption.isNone := by decide +kernel
    have hok : (compile (MemoryStore.provider []) .markup
        ⟨"<?a <p tal:content=\"1\" b=?>", none⟩).toOption.isSome := by decide +kernel
    obtain ⟨q, hq⟩ := Option.isSome_iff_exists.1 hok
    refine ⟨[⟨.malformed, "<?a ", ⟨.start, none⟩⟩,
      ⟨.startTag, "<p tal:content=\"1\" b=?>", ⟨.start, none⟩⟩], ?_, rfl, fun p hp => ?_, q,
      eq_ok_of_toOption hq⟩
    · rw [hscan]
      refine .cons (.same (by decide) rfl rfl) (.cons ?_ (.nil _))
      exact reorders_directiveFirst hstart rfl (by decide +kernel) _ _
    · rw [hp] at hfault
      cases hfault
  · have hscan : Token.ofSource .markup "<!-- a> <p b-- tal:content=\"1\">" none =
        [⟨.comment, "<!-- a>", ⟨⟨1, 1, 0⟩, none⟩⟩, ⟨.text, " ", ⟨⟨1, 8, 7⟩, none⟩⟩,
          ⟨.startTag, "<p b-- tal:content=\"1\">", ⟨⟨1, 9, 8⟩, none⟩⟩] := by
      decide +kernel
    have hstart : startTag? "<p b-- tal:content=\"1\">".toList =
        some (directiveLast ⟨[' '], ['b', '-', '-'], none⟩, []) := by
      decide +kernel
    have htwo : (compile (MemoryStore.provider []) .markup
        ⟨"<!-- a> <p b-- tal:content=\"1\">", none⟩).toOption.map (fun p => p.body.length) = some 2 := by
      decide +kernel
    have hone : (compile (MemoryStore.provider []) .markup
        ⟨"<!-- a> <p tal:content=\"1\" b-->", none⟩).toOption.map (fun p => p.body.length) = some 1 := by
      decide +kernel
    obtain ⟨p, hp, htwo⟩ := Option.map_eq_some_iff.1 htwo
    obtain ⟨q, hq, hone⟩ := Option.map_eq_some_iff.1 hone
    refine ⟨[⟨.comment, "<!-- a>", ⟨.start, none⟩⟩, ⟨.text, " ", ⟨.start, none⟩⟩,
      ⟨.startTag, "<p tal:content=\"1\" b-->", ⟨.start, none⟩⟩], p, q, ?_, rfl, eq_ok_of_toOption hp,
      eq_ok_of_toOption hq, fun h => ?_⟩
    · rw [hscan]
      refine .cons (.same (by decide) rfl rfl) (.cons (.same (by decide) rfl rfl) (.cons ?_ (.nil _)))
      exact reorders_directiveFirst hstart rfl (by decide +kernel) _ _
    · have hlength := congrArg (fun program => program.body.length) h
      simp only [unplaced, Operation.unplacedAll_eq_map, List.length_map, hone, htwo] at hlength
      cases hlength

end Program

end MarkupTemplate
