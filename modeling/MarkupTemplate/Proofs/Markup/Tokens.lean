import Mathlib.Data.List.Chain
import Mathlib.Data.List.Induction
import MarkupTemplate.Markup.Entity
import MarkupTemplate.Markup.Token
import MarkupTemplate.Template.Mode

/-!
# Tokens and their places

Places are kept up character by character, so the place behind a text is what counting its lines and
columns gives (`Position.start_after`). A token that stands in a source is the source at its place
(`Token.StandsIn`); so are its parts, however often parts of parts are taken (`Token.Piece.standsIn`). A
tokenizer takes one token after another off a source until nothing is left, and its tokens are the source
(`Tokenizer.tokens_cover`).
-/

namespace MarkupTemplate

@[simp] theorem octets_nil : octets [] = 0 := rfl

@[simp] theorem octets_append (cs ds : List Char) : octets (cs ++ ds) = octets cs + octets ds := by
  simp only [octets, String.ofList_append, String.utf8ByteSize_append]

theorem octets_cons (c : Char) (cs : List Char) : octets (c :: cs) = c.utf8Size + octets cs := by
  simp only [octets, String.ofList_cons, String.utf8ByteSize_append, String.utf8ByteSize_singleton]

theorem octets_toList (s : String) : octets s.toList = s.utf8ByteSize := by
  rw [octets, String.ofList_toList]

/-! ### Places -/

namespace Position

/-- The place behind the characters `before`: their lines, the characters of the last one, and their
octets. -/
def counted (before : List Char) : Position where
  line := 1 + before.count '\n'
  column := 1 + (before.reverse.takeWhile (· != '\n')).length
  offset := octets before

theorem counted_concat (before : List Char) (c : Char) :
    counted (before ++ [c]) = (counted before).step c := by
  have hoctets : octets [c] = c.utf8Size := by rw [octets_cons, octets_nil, Nat.add_zero]
  unfold counted step
  rw [List.reverse_append, List.reverse_singleton, List.singleton_append, List.takeWhile_cons,
    List.count_append, octets_append, hoctets]
  by_cases hc : c = '\n'
  · simp [hc, Nat.add_assoc]
  · have hcount : [c].count '\n' = 0 := List.count_eq_zero.2 (by simpa using Ne.symm hc)
    simp [hc, hcount, Nat.add_assoc]

theorem start_after (before : List Char) : start.after before = counted before := by
  induction before using List.reverseRecOn with
  | nil => rfl
  | append_singleton before c ih => rw [after_append, ih, counted_concat]; rfl

theorem offset_after (p : Position) (cs : List Char) : (p.after cs).offset = p.offset + octets cs := by
  induction cs generalizing p with
  | nil => rfl
  | cons c cs ih =>
    have hc : (p.step c).offset = p.offset + c.utf8Size := by
      unfold step
      split <;> rfl
    show ((p.step c).after cs).offset = _
    rw [ih, hc, octets_cons, Nat.add_assoc]

end Position

namespace Token

variable {source : String} {filename : Option String} {t : Token}

/-! ### Parts of tokens -/

/-- The token is the source at its place, and its place is counted from the start of the source. -/
def StandsIn (source : String) (filename : Option String) (t : Token) : Prop :=
  ∃ before after, source.toList = before ++ t.text.toList ++ after ∧
    t.location = ⟨.counted before, filename⟩

theorem StandsIn.part (h : t.StandsIn source filename) {before cs after : List Char}
    (ht : t.text.toList = before ++ cs ++ after) : (t.part before cs).StandsIn source filename := by
  obtain ⟨front, back, hs, hl⟩ := h
  refine ⟨front ++ before, after ++ back, ?_, ?_⟩
  · rw [hs, ht, Token.part, String.toList_ofList]
    simp only [List.append_assoc]
  · rw [Token.part, hl]
    show Location.mk ((Position.counted front).after before) filename = _
    rw [← Position.start_after, ← Position.start_after, Position.after_append]

theorem splitOctets_append (n : Nat) (cs : List Char) :
    (splitOctets n cs).1 ++ (splitOctets n cs).2 = cs := by
  fun_induction splitOctets n cs with
  | case1 => rfl
  | case2 n c cs hc ih => rw [List.cons_append, ih]
  | case3 => rfl

theorem splitOctets_octets (cs ds : List Char) : splitOctets (octets cs) (cs ++ ds) = (cs, ds) := by
  induction cs with
  | nil =>
    cases ds with
    | nil => rfl
    | cons d ds =>
      have := d.utf8Size_pos
      simp [splitOctets]
      omega
  | cons c cs ih =>
    rw [octets_cons, List.cons_append, splitOctets, if_pos (Nat.le_add_right ..),
      Nat.add_sub_cancel_left, ih]

theorem splitOctets_of_le {n : Nat} {cs : List Char} (h : octets cs ≤ n) : splitOctets n cs = (cs, []) := by
  induction cs generalizing n with
  | nil => cases n <;> rfl
  | cons c cs ih =>
    rw [octets_cons] at h
    rw [splitOctets, if_pos (by omega), ih (by omega)]

/-- The offsets, counted from the token's start, fall between characters of it, the first one not behind
the last; an end behind the token's stands for the token's end. -/
def InRange (t : Token) (first last : Nat) : Prop :=
  ∃ before cs after, t.text.toList = before ++ cs ++ after ∧ octets before = first ∧
    first + octets cs = min last t.text.utf8ByteSize

theorem StandsIn.slice (h : t.StandsIn source filename) (first last : Nat) :
    (t.slice first last).StandsIn source filename := by
  have hfirst := splitOctets_append first t.text.toList
  have hlast := splitOctets_append (last - first) (splitOctets first t.text.toList).2
  rw [← hlast, ← List.append_assoc] at hfirst
  exact h.part hfirst.symm

/-- A slice is what stands between the offsets. -/
theorem slice_eq_part {first last : Nat} {before cs after : List Char}
    (ht : t.text.toList = before ++ cs ++ after) (hf : octets before = first)
    (hl : first + octets cs = min last t.text.utf8ByteSize) : t.slice first last = t.part before cs := by
  have hsize : t.text.utf8ByteSize = octets before + octets cs + octets after := by
    rw [← octets_toList, ht, octets_append, octets_append]
  have hcs : splitOctets (last - first) (cs ++ after) = (cs, after) := by
    rcases Nat.le_total last t.text.utf8ByteSize with hle | hle
    · have hn : last - first = octets cs := by omega
      rw [hn, splitOctets_octets]
    · -- an end behind the token's leaves nothing after the slice
      have hafter : octets after = 0 := by omega
      have hnil : after = [] := by
        cases after with
        | nil => rfl
        | cons c after =>
          have := c.utf8Size_pos
          rw [octets_cons] at hafter
          omega
      rw [hnil, List.append_nil, splitOctets_of_le (by omega)]
  have hbefore : splitOctets first t.text.toList = (before, cs ++ after) := by
    rw [ht, List.append_assoc, ← hf, splitOctets_octets]
  simp only [slice, part, hbefore, hcs]

theorem slice_of_inRange {first last : Nat} (h : t.InRange first last) :
    (t.slice first last).location.offset = t.location.offset + first ∧
      first + (t.slice first last).text.utf8ByteSize = min last t.text.utf8ByteSize := by
  obtain ⟨before, cs, after, ht, hf, hl⟩ := h
  rw [slice_eq_part ht hf hl]
  refine ⟨?_, ?_⟩
  · show (t.location.toPosition.after before).offset = _
    rw [Position.offset_after, hf]
  · show first + (String.ofList cs).utf8ByteSize = _
    exact hl

theorem StandsIn.nameIn (h : t.StandsIn source filename) {name : Token} (hn : t.nameIn? = some name) :
    name.StandsIn source filename := by
  obtain ⟨⟨front, cs, rest⟩, hf, rfl⟩ := Option.map_eq_some_iff.1 hn
  exact h.part (tagFront?_eq_some hf)

/-- The parts of an attribute that stands behind the characters `before`. -/
theorem StandsIn.attributeAt (h : t.StandsIn source filename) {before rest : List Char}
    {a : WrittenAttribute} (ht : t.text.toList = before ++ (a.chars ++ rest)) :
    (t.attributeAt before a).whole.StandsIn source filename ∧
      (t.attributeAt before a).name.StandsIn source filename ∧
      ∀ v, (t.attributeAt before a).value = some v → v.StandsIn source filename := by
  refine ⟨?_, ?_, fun v hv => ?_⟩
  · rw [← List.append_assoc] at ht
    exact h.part ht
  · have hname : t.text.toList =
        (before ++ a.leading) ++ a.name ++ ((a.value.map WrittenValue.chars).getD [] ++ rest) := by
      rw [ht, WrittenAttribute.chars]
      simp only [List.append_assoc]
    exact h.part hname
  · obtain ⟨w, hw, rfl⟩ := Option.map_eq_some_iff.1 hv
    have hvalue : t.text.toList = (before ++ a.leading ++ a.name ++ w.equals ++ w.quote.toList) ++
        w.text ++ (w.quote.toList ++ rest) := by
      rw [ht, WrittenAttribute.chars, hw]
      cases hq : w.quote <;> simp [WrittenValue.chars, WrittenValue.quoted, hq]
    exact h.part hvalue

theorem StandsIn.attributesWithin (h : t.StandsIn source filename) (before cs : List Char)
    (ht : t.text.toList = before ++ cs) : ∀ a ∈ t.attributesWithin before cs,
      a.whole.StandsIn source filename ∧ a.name.StandsIn source filename ∧
        ∀ v, a.value = some v → v.StandsIn source filename := by
  fun_induction Token.attributesWithin t before cs with
  | case1 => intro a ha; cases ha
  | case2 before c rest a behind ha _ ih =>
    rw [(looseAttribute?_eq_some ha).1] at ht
    intro b hb
    rcases List.mem_cons.1 hb with rfl | hb
    · exact h.attributeAt ht
    · exact ih (by rw [ht, List.append_assoc]) b hb
  | case3 before c rest _ ih => exact ih (by rw [ht, List.append_assoc]; rfl)

theorem StandsIn.attributesIn (h : t.StandsIn source filename) {a : AttributeToken}
    (ha : a ∈ t.attributesIn) : a.whole.StandsIn source filename ∧ a.name.StandsIn source filename ∧
      ∀ v, a.value = some v → v.StandsIn source filename := by
  unfold Token.attributesIn at ha
  split at ha
  · rename_i front name rest hf
    exact h.attributesWithin _ _ (tagFront?_eq_some hf) a ha
  · cases ha

/-- What can be taken of a token: its name, its attributes with their names and values, slices, and
whatever can be taken of these. -/
inductive Piece (t : Token) : Token → Prop
  | whole : Piece t t
  | name {p name : Token} (hp : Piece t p) (hn : p.nameIn? = some name) : Piece t name
  | attributeWhole {p : Token} {a : AttributeToken} (hp : Piece t p) (ha : a ∈ p.attributesIn) :
      Piece t a.whole
  | attributeName {p : Token} {a : AttributeToken} (hp : Piece t p) (ha : a ∈ p.attributesIn) :
      Piece t a.name
  | attributeValue {p v : Token} {a : AttributeToken} (hp : Piece t p) (ha : a ∈ p.attributesIn)
      (hv : a.value = some v) : Piece t v
  | slice {p : Token} {first last : Nat} (hp : Piece t p) (hr : p.InRange first last) :
      Piece t (p.slice first last)

theorem Piece.standsIn {p : Token} (hp : t.Piece p) (h : t.StandsIn source filename) :
    p.StandsIn source filename := by
  induction hp with
  | whole => exact h
  | name _ hn ih => exact ih.nameIn hn
  | attributeWhole _ ha ih => exact (ih.attributesIn ha).1
  | attributeName _ ha ih => exact (ih.attributesIn ha).2.1
  | attributeValue _ ha hv ih => exact (ih.attributesIn ha).2.2 _ hv
  | slice _ _ ih => exact ih.slice _ _

/-! ### Names and attributes of tags -/

theorem tagFront?_of_tag? {cs rest : List Char} {tag : WrittenTag}
    (h : MarkupTemplate.tag? cs = some (tag, rest)) :
    ∃ behind, tagFront? cs = some (if tag.ending then ['<', '/'] else ['<'], tag.name, behind) ∧
      tag.attributes <+: (MarkupTemplate.attributes behind).1 := by
  rcases Option.or_eq_some_iff.1 h with h | ⟨-, h⟩
  · unfold endTag? at h
    split at h
    · obtain ⟨⟨name, behind⟩, hn, h⟩ := Option.bind_eq_some_iff.1 h
      obtain ⟨⟨close, rest⟩, -, h⟩ := Option.bind_eq_some_iff.1 h
      cases h
      exact ⟨behind, by simp [tagFront?, hn], List.nil_prefix⟩
    · cases h
  · unfold startTag? at h
    split at h
    · rename_i cs _
      obtain ⟨⟨name, behind⟩, hn, h⟩ := Option.bind_eq_some_iff.1 h
      obtain ⟨⟨close, rest⟩, -, h⟩ := Option.bind_eq_some_iff.1 h
      cases h
      refine ⟨behind, ?_, List.prefix_refl _⟩
      unfold tagFront?
      split
      · -- a slash begins no name
        rename_i cs' he
        obtain ⟨-, rfl⟩ := List.cons.inj he
        cases hn
      · rename_i cs' _ he
        obtain ⟨-, rfl⟩ := List.cons.inj he
        simp [hn]
      · rename_i hne
        exact absurd rfl (hne cs)
    · cases h

theorem attributesFrom_prefix (t : Token) (before cs : List Char) {as : List WrittenAttribute}
    (h : as <+: (MarkupTemplate.attributes cs).1) :
    t.attributesFrom before as <+: t.attributesWithin before cs := by
  induction as generalizing before cs with
  | nil => exact List.nil_prefix
  | cons a as ih =>
    unfold MarkupTemplate.attributes at h
    split at h
    · cases List.prefix_nil.1 h
    · rename_i b rest hb
      obtain ⟨rfl, has⟩ : a = b ∧ as <+: (MarkupTemplate.attributes rest).1 := List.cons_prefix_cons.1 h
      cases cs with
      | nil => cases hb
      | cons c cs =>
        have hl := looseAttribute?_of_attribute? hb
        unfold Token.attributesFrom Token.attributesWithin
        split
        · rename_i d behind hd
          rw [hl] at hd
          cases hd
          exact (List.prefix_cons_inj _).2 (ih _ _ has)
        · rename_i hd
          rw [hl] at hd
          cases hd

theorem tagged_cases {tag : WrittenTag} (h : t.tag? = some tag) :
    ∃ rest, MarkupTemplate.tag? t.text.toList = some (tag, rest) := by
  have h : (MarkupTemplate.tag? t.text.toList).map (·.1) = some tag := by
    unfold Token.tag? at h
    split at h
    · exact h
    · exact h
    · exact h
    · cases h
  obtain ⟨⟨_, rest⟩, ht, rfl⟩ := Option.map_eq_some_iff.1 h
  exact ⟨rest, ht⟩

theorem nameIn?_of_tagName? {name : Token} (h : t.tagName? = some name) : t.nameIn? = some name := by
  obtain ⟨tag, ht, rfl⟩ := Option.map_eq_some_iff.1 h
  obtain ⟨rest, hr⟩ := tagged_cases ht
  obtain ⟨behind, hf, -⟩ := tagFront?_of_tag? hr
  rw [nameIn?, hf]
  rfl

theorem attributes_prefix (t : Token) : t.attributes <+: t.attributesIn := by
  unfold Token.attributes
  split
  · rename_i tag ht
    obtain ⟨rest, hr⟩ := tagged_cases ht
    obtain ⟨behind, hf, ha⟩ := tagFront?_of_tag? hr
    have hfront : (if tag.ending then ['<', '/'] else ['<']) ++ tag.name = tag.front := by
      unfold WrittenTag.front
      split <;> rfl
    rw [Token.attributesIn, hf]
    show _ <+: t.attributesWithin ((if tag.ending then ['<', '/'] else ['<']) ++ tag.name) behind
    rw [hfront]
    exact attributesFrom_prefix t tag.front behind ha
  · exact List.nil_prefix

/-! ### Taking tokens off a source -/

/-- The tokens of a source, read as markup or as text. -/
def ofSource (mode : TemplateMode) (source : String) (filename : Option String) : List Token :=
  match mode with
  | .markup => scan source filename
  | .text => scanText source filename

/-- No token is empty, they stand one right behind another from the start, and together they are the
source. -/
structure Cover (source : String) (tokens : List Token) : Prop where
  ne_empty : ∀ t ∈ tokens, t.text ≠ ""
  first : ∀ t, tokens.head? = some t → t.location.offset = 0
  next : tokens.IsChain fun t u => u.location.offset = t.location.offset + t.text.utf8ByteSize
  join : String.join (tokens.map Token.text) = source

end Token

/-- A tokenizer under way: how it reads, its place in the source, and what is left of the source. -/
structure Tokenizer where
  mode : TemplateMode
  filename : Option String
  place : Position
  rest : List Char

namespace Tokenizer

variable {z y : Tokenizer} {t : Token} {tokens : List Token}

/-- A tokenizer before a source. -/
def start (mode : TemplateMode) (source : String) (filename : Option String) : Tokenizer :=
  ⟨mode, filename, .start, source.toList⟩

/-- The kind and the text of the next token, and what is left behind it. -/
def cut (z : Tokenizer) : TokenKind × List Char × List Char :=
  match z.mode with
  | .markup => nextToken z.rest
  | .text => (.text, z.rest, [])

/-- The next token, unless nothing is left, and the tokenizer behind it. -/
def next? (z : Tokenizer) : Option (Token × Tokenizer) :=
  if z.rest = [] then none
  else
    some (⟨z.cut.1, String.ofList z.cut.2.1, ⟨z.place, z.filename⟩⟩,
      ⟨z.mode, z.filename, z.place.after z.cut.2.1, z.cut.2.2⟩)

/-- The iteration ends with these tokens. -/
inductive Yields : Tokenizer → List Token → Prop
  | done {z : Tokenizer} (h : z.next? = none) : Yields z []
  | more {z y : Tokenizer} {t : Token} {tokens : List Token} (h : z.next? = some (t, y))
      (hy : Yields y tokens) : Yields z (t :: tokens)

theorem yields_scanFrom (filename : Option String) (place : Position) (cs : List Char) :
    Yields ⟨.markup, filename, place, cs⟩ (Token.scanFrom filename place cs) := by
  fun_induction Token.scanFrom filename place cs with
  | case1 place => exact .done rfl
  | case2 place c cs next ih => exact .more rfl ih

theorem yields_ofSource (mode : TemplateMode) (source : String) (filename : Option String) :
    (start mode source filename).Yields (Token.ofSource mode source filename) := by
  cases mode with
  | markup => exact yields_scanFrom filename .start source.toList
  | text =>
    by_cases hs : source = ""
    · subst hs
      exact .done rfl
    · have hne : source.toList ≠ [] := fun h => hs (String.toList_inj.1 (by rw [h]; rfl))
      have ht : Token.ofSource .text source filename = [⟨.text, source, ⟨.start, filename⟩⟩] := by
        show Token.scanText source filename = _
        rw [Token.scanText, if_neg (by simpa using hs)]
      rw [ht]
      have hnext : (start .text source filename).next? = some (⟨.text, source, ⟨.start, filename⟩⟩,
          ⟨.text, filename, Position.start.after source.toList, []⟩) := by
        have hcut : (start .text source filename).cut = (.text, source.toList, []) := rfl
        have hrest : (start .text source filename).rest ≠ [] := hne
        rw [next?, if_neg hrest, hcut]
        simp only [start, String.ofList_toList]
      exact .more hnext (.done rfl)

theorem cut_append (z : Tokenizer) : z.cut.2.1 ++ z.cut.2.2 = z.rest := by
  unfold cut
  split
  · exact nextToken_append z.rest
  · exact List.append_nil z.rest

theorem cut_ne_nil (h : z.rest ≠ []) : z.cut.2.1 ≠ [] := by
  unfold cut
  split
  · exact nextToken_ne_nil h
  · exact h

/-- The text of a token is taken off what is left, and the place moves behind it. -/
theorem next?_some (h : z.next? = some (t, y)) :
    z.rest = t.text.toList ++ y.rest ∧ t.text ≠ "" ∧ t.location = ⟨z.place, z.filename⟩ ∧
      y.place = z.place.after t.text.toList ∧ y.filename = z.filename := by
  unfold next? at h
  split at h
  · cases h
  · rename_i hne
    cases h
    refine ⟨?_, fun he => cut_ne_nil hne ?_, rfl, ?_, rfl⟩
    · rw [String.toList_ofList, cut_append]
    · have he : String.ofList z.cut.2.1 = "" := he
      rw [← String.toList_ofList (l := z.cut.2.1), he]
      rfl
    · rw [String.toList_ofList]

/-- What one token of an iteration keeps: it stands in the source if the tokenizer does. -/
theorem Yields.standsIn {source : String} (h : z.Yields tokens) {before : List Char}
    (hs : source.toList = before ++ z.rest) (hp : z.place = .counted before) :
    ∀ t ∈ tokens, t.StandsIn source z.filename := by
  induction h generalizing before with
  | done => intro t ht; cases ht
  | @more z y t tokens hz hy ih =>
    obtain ⟨hr, -, hl, hplace, hname⟩ := next?_some hz
    rw [hr, ← List.append_assoc] at hs
    have hp' : y.place = .counted (before ++ t.text.toList) := by
      rw [hplace, hp, ← Position.start_after, ← Position.start_after, Position.after_append]
    intro u hu
    rcases List.mem_cons.1 hu with rfl | hu
    · exact ⟨before, y.rest, hs, by rw [hl, hp]⟩
    · rw [← hname]
      exact ih hs hp' u hu

theorem Yields.head (h : z.Yields tokens) (ht : tokens.head? = some t) :
    t.location = ⟨z.place, z.filename⟩ := by
  cases h with
  | done => cases ht
  | more hz _ =>
    cases ht
    exact (next?_some hz).2.2.1

theorem Yields.ne_empty (h : z.Yields tokens) : ∀ t ∈ tokens, t.text ≠ "" := by
  induction h with
  | done => intro t ht; cases ht
  | more hz _ ih =>
    intro u hu
    rcases List.mem_cons.1 hu with rfl | hu
    · exact (next?_some hz).2.1
    · exact ih u hu

theorem Yields.next (h : z.Yields tokens) :
    tokens.IsChain fun t u => u.location.offset = t.location.offset + t.text.utf8ByteSize := by
  induction h with
  | done => exact .nil
  | more hz hy ih =>
    refine List.isChain_cons.2 ⟨fun u hu => ?_, ih⟩
    obtain ⟨-, -, hl, hplace, -⟩ := next?_some hz
    rw [hy.head hu, hl, ← octets_toList]
    show Position.offset _ = _
    rw [hplace, Position.offset_after]

theorem Yields.join (h : z.Yields tokens) : (String.join (tokens.map Token.text)).toList = z.rest := by
  induction h with
  | @done z hz =>
    unfold next? at hz
    split at hz
    · rename_i hr
      rw [hr]
      rfl
    · cases hz
  | more hz _ ih =>
    rw [List.map_cons, String.join_cons, String.toList_append, ih, (next?_some hz).1]

theorem cover_ofSource (mode : TemplateMode) (source : String) (filename : Option String) :
    Token.Cover source (Token.ofSource mode source filename) := by
  have h := yields_ofSource mode source filename
  refine ⟨h.ne_empty, fun t ht => ?_, h.next, String.toList_inj.1 h.join⟩
  rw [h.head ht]
  rfl

/-- The tokens of a source are the source, each at its place, and so is everything that can be taken of
them; the names and attributes of tags are among that. -/
theorem tokens_cover (mode : TemplateMode) (source : String) (filename : Option String) :
    ∃ tokens, (start mode source filename).Yields tokens ∧
      tokens = Token.ofSource mode source filename ∧ Token.Cover source tokens ∧
      ∀ t ∈ tokens,
        (∀ p, t.Piece p → p.StandsIn source filename ∧ ∀ first last, p.InRange first last →
          (p.slice first last).location.offset = p.location.offset + first ∧
            first + (p.slice first last).text.utf8ByteSize = min last p.text.utf8ByteSize) ∧
        (∀ name, t.tagName? = some name → t.nameIn? = some name) ∧ t.attributes <+: t.attributesIn := by
  have h := yields_ofSource mode source filename
  refine ⟨_, h, rfl, cover_ofSource mode source filename, fun t ht => ⟨fun p hp => ?_, ?_, ?_⟩⟩
  · have hs : t.StandsIn source filename := h.standsIn (List.nil_append _).symm rfl t ht
    exact ⟨hp.standsIn hs, fun _ _ => Token.slice_of_inRange⟩
  · exact fun _ => Token.nameIn?_of_tagName?
  · exact t.attributes_prefix

end Tokenizer

end MarkupTemplate
