import MarkupTemplate.Markup.Location
import MarkupTemplate.Markup.Tag

/-!
# Tokens

A source text is cut into tokens that cover it without gaps: comments, character data, declarations,
processing instructions, tags, malformed markup, and the text between. A token knows where it
stands; parts of a token are tokens too, with places of their own.
-/

namespace MarkupTemplate

open Text

/-- What a token is. -/
inductive TokenKind where
  | text
  | comment
  | cdata
  | declaration
  | xmlDeclaration
  | instruction
  | startTag
  | endTag
  | emptyTag
  /-- Begins like markup and is none. -/
  | malformed
  deriving DecidableEq, Repr, Inhabited

namespace TokenKind

/-- The text begins with `start`. -/
def beginsWith (start : String) (cs : List Char) : Bool :=
  (dropStart? start.toList cs).isSome

/-- What a piece of markup is, by its first and last characters. -/
def classify (cs : List Char) : TokenKind :=
  if beginsWith "<!--" cs then .comment
  else if beginsWith "<![CDATA[" cs then .cdata
  else if beginsWith "<!" cs then .declaration
  else if ((dropStart? "<?xml".toList cs).bind List.head?).any fun c => isBlank c || c == '?' then
    .xmlDeclaration
  else if beginsWith "<?" cs then .instruction
  else if beginsWith "</" cs then .endTag
  else if (dropEnd? ['/', '>'] cs).isSome then .emptyTag
  else if cs.getLast? == some '>' then .startTag
  else .text

end TokenKind

/-! ### Cutting off the next token -/

/-- Markup that begins with `opening` and runs to the first `closing` behind it. -/
def delimited? (opening closing : List Char) (cs : List Char) : Option (List Char × List Char) := do
  let rest ← dropStart? opening cs
  let (body, rest) ← splitAfter? closing rest
  some (opening ++ body, rest)

/-- The tag at the front of a text. -/
def tag? (cs : List Char) : Option (WrittenTag × List Char) :=
  (endTag? cs).or (startTag? cs)

/-- The piece of markup at the front of a text, if it is well formed. -/
def markup? (cs : List Char) : Option (List Char × List Char) :=
  (delimited? "<!--".toList "-->".toList cs).or <|
  (delimited? "<![CDATA[".toList "]]>".toList cs).or <|
  (delimited? "<!".toList ">".toList cs).or <|
  (delimited? "<?".toList "?>".toList cs).or <|
  (tag? cs).map fun (tag, rest) => (tag.chars, rest)

/-- The character after an opening bracket announces markup. -/
def announcesMarkup (c : Char) : Bool :=
  isNameStart c || c == '/' || c == '!' || c == '?'

/-- The kind and the text of the next token, and the rest. Malformed markup runs to the next closing
bracket, or up to the next opening one. -/
def nextToken (cs : List Char) : TokenKind × List Char × List Char :=
  match cs with
  | '<' :: rest =>
    match markup? cs with
    | some (text, rest) => (.classify text, text, rest)
    | none =>
      if rest.head?.any announcesMarkup then
        match rest.dropWhile (fun c => c != '<' && c != '>') with
        | '>' :: after =>
          (.malformed, '<' :: rest.takeWhile (fun c => c != '<' && c != '>') ++ ['>'], after)
        | after => (.malformed, '<' :: rest.takeWhile (fun c => c != '<' && c != '>'), after)
      else (.text, '<' :: rest.takeWhile (· != '<'), rest.dropWhile (· != '<'))
  | _ => (.text, cs.takeWhile (· != '<'), cs.dropWhile (· != '<'))

theorem delimited?_eq_some {opening closing cs text rest : List Char}
    (h : delimited? opening closing cs = some (text, rest)) :
    cs = text ++ rest ∧ opening <+: text := by
  simp only [delimited?, Option.bind_eq_bind, Option.bind_eq_some_iff, Option.some.injEq,
    Prod.mk.injEq, Prod.exists] at h
  obtain ⟨r, hr, body, s, hs, rfl, rfl⟩ := h
  refine ⟨?_, List.prefix_append ..⟩
  rw [dropStart?_eq_some hr, ← splitAfter?_append hs, List.append_assoc]

theorem tag?_eq_some {cs rest : List Char} {t : WrittenTag} (h : tag? cs = some (t, rest)) :
    cs = t.chars ++ rest := by
  rcases Option.or_eq_some_iff.mp h with h | ⟨-, h⟩
  · exact endTag?_eq_some h
  · exact startTag?_eq_some h

/-- Markup is cut off without loss, and is not empty. -/
theorem markup?_eq_some {cs text rest : List Char} (h : markup? cs = some (text, rest)) :
    cs = text ++ rest ∧ text ≠ [] := by
  have hd : ∀ opening closing : List Char, opening ≠ [] →
      delimited? opening closing cs = some (text, rest) → cs = text ++ rest ∧ text ≠ [] := by
    intro opening closing hne h
    obtain ⟨h, hp⟩ := delimited?_eq_some h
    refine ⟨h, ?_⟩
    rintro rfl
    exact hne (List.prefix_nil.mp hp)
  rcases Option.or_eq_some_iff.mp h with h | ⟨-, h⟩
  · exact hd _ _ (by simp) h
  rcases Option.or_eq_some_iff.mp h with h | ⟨-, h⟩
  · exact hd _ _ (by simp) h
  rcases Option.or_eq_some_iff.mp h with h | ⟨-, h⟩
  · exact hd _ _ (by simp) h
  rcases Option.or_eq_some_iff.mp h with h | ⟨-, h⟩
  · exact hd _ _ (by simp) h
  obtain ⟨⟨t, r⟩, ht, hp⟩ := Option.map_eq_some_iff.mp h
  cases hp
  exact ⟨tag?_eq_some ht, by simp [WrittenTag.chars, WrittenTag.front]⟩

/-- The next token and the rest are the text. -/
theorem nextToken_append (cs : List Char) : (nextToken cs).2.1 ++ (nextToken cs).2.2 = cs := by
  unfold nextToken
  split
  · next rest =>
    split
    · next text r h => exact (markup?_eq_some h).1.symm
    · split
      · have hr := List.takeWhile_append_dropWhile (p := fun c => c != '<' && c != '>') (l := rest)
        split
        · next after ha => rw [ha] at hr; simp [hr]
        · simp [hr]
      · simp [List.takeWhile_append_dropWhile]
  · exact List.takeWhile_append_dropWhile

theorem nextToken_ne_nil {cs : List Char} (h : cs ≠ []) : (nextToken cs).2.1 ≠ [] := by
  unfold nextToken
  split
  · split
    · next text r h => exact (markup?_eq_some h).2
    · split
      · split <;> simp
      · simp
  · next hlt =>
    cases cs with
    | nil => exact absurd rfl h
    | cons c cs =>
      have hc : c ≠ '<' := fun he => hlt cs (by rw [he])
      simp [hc]

theorem length_rest_nextToken {cs : List Char} (h : cs ≠ []) :
    (nextToken cs).2.2.length < cs.length := by
  have := congrArg List.length (nextToken_append cs)
  have := List.length_pos_iff.mpr (nextToken_ne_nil h)
  simp at *
  omega

/-! ### Tokens with their places -/

/-- A piece of a source text. -/
structure Token where
  kind : TokenKind
  text : String
  location : Location
  deriving DecidableEq, Repr, Inhabited

namespace Token

/-- The tokens of a text whose first character stands at `start`. -/
def scanFrom (filename : Option String) (start : Position) (cs : List Char) : List Token :=
  match cs with
  | [] => []
  | c :: cs =>
    let next := nextToken (c :: cs)
    ⟨next.1, String.ofList next.2.1, ⟨start, filename⟩⟩ ::
      scanFrom filename (start.after next.2.1) next.2.2
termination_by cs.length
decreasing_by exact length_rest_nextToken (List.cons_ne_nil c cs)

/-- The tokens of a markup source. -/
def scan (source : String) (filename : Option String) : List Token :=
  scanFrom filename .start source.toList

/-- A source that is text alone: one token, or none if it is empty. -/
def scanText (source : String) (filename : Option String) : List Token :=
  if source.isEmpty then [] else [⟨.text, source, ⟨.start, filename⟩⟩]

/-- The part of a text that takes at most `n` octets, and the rest. -/
def splitOctets : Nat → List Char → List Char × List Char
  | _, [] => ([], [])
  | n, c :: cs =>
    if c.utf8Size ≤ n then
      (c :: (splitOctets (n - c.utf8Size) cs).1, (splitOctets (n - c.utf8Size) cs).2)
    else ([], c :: cs)

/-- The part of a token between two offsets counted from its start. -/
def slice (t : Token) (first last : Nat) : Token :=
  let parts := splitOctets first t.text.toList
  ⟨.text, String.ofList (splitOctets (last - first) parts.2).1,
    ⟨t.location.after parts.1, t.location.filename⟩⟩

/-- A part of a token that begins behind the characters `before` of it. -/
def part (t : Token) (before cs : List Char) : Token :=
  ⟨.text, String.ofList cs, ⟨t.location.after before, t.location.filename⟩⟩

/-- The tag that a token is. -/
def tag? (t : Token) : Option WrittenTag :=
  match t.kind with
  | .startTag | .emptyTag | .endTag => (MarkupTemplate.tag? t.text.toList).map (·.1)
  | _ => none

end Token

/-- An attribute of a tag, with its parts as tokens. -/
structure AttributeToken where
  /-- The whole attribute with the blanks before it. -/
  whole : Token
  leading : String
  name : Token
  equals : Option String
  /-- The value without its quotes, still escaped. -/
  value : Option Token
  quote : Option Char
  deriving DecidableEq, Repr

namespace Token

/-- An attribute of the tag `t`, behind the characters `before`. -/
def attributeAt (t : Token) (before : List Char) (a : WrittenAttribute) : AttributeToken where
  whole := t.part before a.chars
  leading := String.ofList a.leading
  name := t.part (before ++ a.leading) a.name
  equals := a.value.map fun v => String.ofList v.equals
  value := a.value.map fun v =>
    t.part (before ++ a.leading ++ a.name ++ v.equals ++ v.quote.toList) v.text
  quote := a.value.bind (·.quote)

/-- The attributes of the tag `t`, the first one behind the characters `before`. -/
def attributesFrom (t : Token) (before : List Char) : List WrittenAttribute → List AttributeToken
  | [] => []
  | a :: attrs => t.attributeAt before a :: t.attributesFrom (before ++ a.chars) attrs

/-- The name of a tag. -/
def tagName? (t : Token) : Option Token :=
  t.tag?.map fun tag => t.part (if tag.ending then ['<', '/'] else ['<']) tag.name

/-- The attributes of a tag, in source order. -/
def attributes (t : Token) : List AttributeToken :=
  match t.tag? with
  | some tag => t.attributesFrom tag.front tag.attributes
  | none => []

/-- The name that a token begins with behind brackets, be it a tag or not. -/
def nameIn? (t : Token) : Option Token :=
  (tagFront? t.text.toList).map fun (front, name, _) => t.part front name

/-- What reads as an attribute in the text `cs`, which stands in `t` behind the characters `before`. -/
def attributesWithin (t : Token) (before cs : List Char) : List AttributeToken :=
  match cs with
  | [] => []
  | c :: rest =>
    match h : looseAttribute? (c :: rest) with
    | some (a, behind) =>
      have := length_lt_of_looseAttribute? h
      t.attributeAt before a :: t.attributesWithin (before ++ a.chars) behind
    | none => t.attributesWithin (before ++ [c]) rest
termination_by cs.length
decreasing_by
  · exact this
  · exact Nat.lt_succ_self rest.length

/-- What reads as an attribute behind the name that a token begins with, be it a tag or not. -/
def attributesIn (t : Token) : List AttributeToken :=
  match tagFront? t.text.toList with
  | some (front, name, rest) => t.attributesWithin (front ++ name) rest
  | none => []

/-- The end of a tag: its closing bracket with a slash and blanks before it. -/
def tagClose (t : Token) : String :=
  (t.tag?.map fun tag => String.ofList tag.close).getD ""

end Token

end MarkupTemplate
