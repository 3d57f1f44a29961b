import MarkupTemplate.Text.Split

/-!
# Tags

The grammar of tags: a name, attributes with blanks before each, and a close. `startTag?` and
`endTag?` take the longest tag off a text, in parts that together are the text taken
(`startTag?_eq_some`, `endTag?_eq_some`).
-/

namespace MarkupTemplate

open Text

/-- The first character of a name. -/
def isNameStart (c : Char) : Bool :=
  c.isAlpha || c == '_' || c == ':'

/-- A character of a name. -/
def isNameChar (c : Char) : Bool :=
  isNameStart c || c.isDigit || c == '-' || c == '.'

/-- A character of a value without quotes. -/
def isUnquotedChar (c : Char) : Bool :=
  !isBlank c && ['"', '\x27', '<', '>', '=', '\x60', '/'].all (· != c)

/-- The value of an attribute as it is written. -/
structure WrittenValue where
  /-- The equals sign with the blanks around it. -/
  equals : List Char
  quote : Option Char
  /-- The value without its quotes, still escaped. -/
  text : List Char
  deriving DecidableEq, Repr

/-- An attribute as it is written. -/
structure WrittenAttribute where
  /-- The blanks before the name. -/
  leading : List Char
  name : List Char
  value : Option WrittenValue
  deriving DecidableEq, Repr

/-- A start, empty or end tag as it is written. -/
structure WrittenTag where
  /-- The tag begins with a slash. -/
  ending : Bool
  name : List Char
  attributes : List WrittenAttribute
  /-- The closing bracket, with a slash or blanks before it. -/
  close : List Char
  deriving DecidableEq, Repr

namespace WrittenValue

/-- The value with its quotes. -/
def quoted (v : WrittenValue) : List Char :=
  match v.quote with
  | some q => q :: v.text ++ [q]
  | none => v.text

/-- The characters of the value, the equals sign included. -/
def chars (v : WrittenValue) : List Char :=
  v.equals ++ v.quoted

end WrittenValue

/-- The characters of an attribute. -/
def WrittenAttribute.chars (a : WrittenAttribute) : List Char :=
  a.leading ++ a.name ++ (a.value.map WrittenValue.chars).getD []

/-- The characters up to the name's end. -/
def WrittenTag.front (t : WrittenTag) : List Char :=
  '<' :: (if t.ending then ['/'] else []) ++ t.name

/-- The characters of a tag. -/
def WrittenTag.chars (t : WrittenTag) : List Char :=
  t.front ++ t.attributes.flatMap WrittenAttribute.chars ++ t.close

/-! ### Reading -/

/-- The longest name at the front of a text. -/
def name? : List Char → Option (List Char × List Char)
  | [] => none
  | c :: cs =>
    if isNameStart c then some (c :: cs.takeWhile isNameChar, cs.dropWhile isNameChar) else none

/-- A value behind the equals sign: its quote, its text and the rest. -/
def value? (cs : List Char) : Option (Option Char × List Char × List Char) :=
  match cs with
  | '"' :: rest => (splitFirst '"' rest).map fun (text, rest) => (some '"', text, rest)
  | '\x27' :: rest => (splitFirst '\x27' rest).map fun (text, rest) => (some '\x27', text, rest)
  | _ =>
    let text := cs.takeWhile isUnquotedChar
    if text.isEmpty then none else some (none, text, cs.dropWhile isUnquotedChar)

/-- The value part of an attribute, which may be absent; not so after an equals sign. -/
def valuePart? (cs : List Char) : Option (Option WrittenValue × List Char) :=
  match cs.dropWhile isBlank with
  | '=' :: rest =>
    let equals := cs.takeWhile isBlank ++ '=' :: rest.takeWhile isBlank
    (value? (rest.dropWhile isBlank)).map fun (quote, text, rest) =>
      (some ⟨equals, quote, text⟩, rest)
  | _ => some (none, cs)

/-- An attribute at the front of a text. -/
def attribute? (cs : List Char) : Option (WrittenAttribute × List Char) :=
  let leading := cs.takeWhile isBlank
  if leading.isEmpty then none
  else do
    let (name, rest) ← name? (cs.dropWhile isBlank)
    let (value, rest) ← valuePart? rest
    some (⟨leading, name, value⟩, rest)

/-- An attribute at the front of a text that need not be a tag; a value that cannot be read is no part
of it. -/
def looseAttribute? (cs : List Char) : Option (WrittenAttribute × List Char) :=
  let leading := cs.takeWhile isBlank
  if leading.isEmpty then none
  else do
    let (name, rest) ← name? (cs.dropWhile isBlank)
    let (value, rest) := (valuePart? rest).getD (none, rest)
    some (⟨leading, name, value⟩, rest)

/-- The brackets that a text begins with, the name behind them, and the rest. -/
def tagFront? : List Char → Option (List Char × List Char × List Char)
  | '<' :: '/' :: cs => (name? cs).map fun (name, rest) => (['<', '/'], name, rest)
  | '<' :: cs => (name? cs).map fun (name, rest) => (['<'], name, rest)
  | _ => none

theorem name?_eq_some {cs name rest : List Char} (h : name? cs = some (name, rest)) :
    cs = name ++ rest := by
  cases cs with
  | nil => cases h
  | cons c cs =>
    simp only [name?] at h
    split at h
    · cases h; simp
    · cases h

theorem splitFirst_eq_some {sep : Char} {cs front rest : List Char}
    (h : splitFirst sep cs = some (front, rest)) : cs = front ++ sep :: rest := by
  unfold splitFirst at h
  split at h
  · cases h
  · next c r hd =>
    cases h
    have hc : c = sep := by
      have := List.head?_dropWhile_not (· != sep) cs
      rw [hd] at this
      simpa using this
    subst hc
    rw [← hd, List.takeWhile_append_dropWhile]

theorem value?_eq_some {cs text rest : List Char} {quote : Option Char}
    (h : value? cs = some (quote, text, rest)) :
    cs = WrittenValue.quoted ⟨[], quote, text⟩ ++ rest := by
  unfold value? at h
  split at h
  · obtain ⟨⟨t, r⟩, hs, hp⟩ := Option.map_eq_some_iff.mp h
    cases hp
    simp [WrittenValue.quoted, splitFirst_eq_some hs]
  · obtain ⟨⟨t, r⟩, hs, hp⟩ := Option.map_eq_some_iff.mp h
    cases hp
    simp [WrittenValue.quoted, splitFirst_eq_some hs]
  · dsimp only at h
    split at h
    · cases h
    · cases h
      simp [WrittenValue.quoted]

theorem valuePart?_eq_some {cs rest : List Char} {value : Option WrittenValue}
    (h : valuePart? cs = some (value, rest)) :
    cs = (value.map WrittenValue.chars).getD [] ++ rest := by
  unfold valuePart? at h
  split at h
  · next r hd =>
    obtain ⟨⟨q, t, s⟩, hv, hp⟩ := Option.map_eq_some_iff.mp h
    cases hp
    have hcs := List.takeWhile_append_dropWhile (p := isBlank) (l := cs)
    have hr := List.takeWhile_append_dropWhile (p := isBlank) (l := r)
    rw [value?_eq_some hv] at hr
    rw [hd] at hcs
    have key : ∀ blanks more : List Char, blanks ++ '=' :: r = cs →
        more ++ (WrittenValue.quoted ⟨[], q, t⟩ ++ rest) = r →
        cs = WrittenValue.chars ⟨blanks ++ '=' :: more, q, t⟩ ++ rest := by
      rintro blanks more rfl rfl
      simp [WrittenValue.chars, WrittenValue.quoted]
    exact key _ _ hcs hr
  · cases h; rfl

theorem looseAttribute?_eq_some {cs rest : List Char} {a : WrittenAttribute}
    (h : looseAttribute? cs = some (a, rest)) : cs = a.chars ++ rest ∧ a.leading ≠ [] := by
  unfold looseAttribute? at h
  dsimp only at h
  split at h
  · cases h
  · next hne =>
    simp only [Option.bind_eq_bind, Option.bind_eq_some_iff, Option.some.injEq,
      Prod.mk.injEq, Prod.exists] at h
    obtain ⟨name, r, hn, rfl, rfl⟩ := h
    refine ⟨?_, by simpa using hne⟩
    have hcs := List.takeWhile_append_dropWhile (p := isBlank) (l := cs)
    rw [name?_eq_some hn] at hcs
    cases hv : valuePart? r with
    | none => simpa [WrittenAttribute.chars] using hcs.symm
    | some part =>
      obtain ⟨value, s⟩ := part
      rw [valuePart?_eq_some hv] at hcs
      simpa [WrittenAttribute.chars] using hcs.symm

theorem length_lt_of_looseAttribute? {cs rest : List Char} {a : WrittenAttribute}
    (h : looseAttribute? cs = some (a, rest)) : rest.length < cs.length := by
  obtain ⟨h, hne⟩ := looseAttribute?_eq_some h
  have := List.length_pos_iff.mpr hne
  rw [h]
  simp [WrittenAttribute.chars]
  omega

theorem looseAttribute?_of_attribute? {cs : List Char} {found : WrittenAttribute × List Char}
    (h : attribute? cs = some found) : looseAttribute? cs = some found := by
  unfold attribute? at h
  unfold looseAttribute?
  dsimp only at h ⊢
  split at h
  · cases h
  · next hne =>
    simp only [Option.bind_eq_bind, Option.bind_eq_some_iff, Prod.exists] at h
    obtain ⟨name, r, hn, value, s, hv, h⟩ := h
    rw [if_neg hne, hn, Option.bind_eq_bind, Option.bind_some, hv, Option.getD_some, h]

theorem attribute?_eq_some {cs rest : List Char} {a : WrittenAttribute}
    (h : attribute? cs = some (a, rest)) : cs = a.chars ++ rest ∧ a.leading ≠ [] :=
  looseAttribute?_eq_some (looseAttribute?_of_attribute? h)

theorem length_lt_of_attribute? {cs rest : List Char} {a : WrittenAttribute}
    (h : attribute? cs = some (a, rest)) : rest.length < cs.length :=
  length_lt_of_looseAttribute? (looseAttribute?_of_attribute? h)

theorem tagFront?_eq_some {cs front name rest : List Char}
    (h : tagFront? cs = some (front, name, rest)) : cs = front ++ name ++ rest := by
  unfold tagFront? at h
  split at h
  · obtain ⟨⟨n, r⟩, hn, hp⟩ := Option.map_eq_some_iff.mp h
    cases hp
    simp [name?_eq_some hn]
  · obtain ⟨⟨n, r⟩, hn, hp⟩ := Option.map_eq_some_iff.mp h
    cases hp
    simp [name?_eq_some hn]
  · cases h

/-- The attributes at the front of a text, as many as there are, and the rest. -/
def attributes (cs : List Char) : List WrittenAttribute × List Char :=
  match h : attribute? cs with
  | none => ([], cs)
  | some (a, rest) =>
    have := length_lt_of_attribute? h
    let others := attributes rest
    (a :: others.1, others.2)
termination_by cs.length

/-- The end of a tag. -/
def close? (slash : Bool) (cs : List Char) : Option (List Char × List Char) :=
  let blanks := cs.takeWhile isBlank
  match cs.dropWhile isBlank with
  | '>' :: rest => some (blanks ++ ['>'], rest)
  | '/' :: '>' :: rest => if slash then some (blanks ++ ['/', '>'], rest) else none
  | _ => none

/-- A start or empty tag at the front of a text. -/
def startTag? : List Char → Option (WrittenTag × List Char)
  | '<' :: cs => do
    let (name, rest) ← name? cs
    let (close, rest') ← close? true (attributes rest).2
    some (⟨false, name, (attributes rest).1, close⟩, rest')
  | _ => none

/-- An end tag at the front of a text. -/
def endTag? : List Char → Option (WrittenTag × List Char)
  | '<' :: '/' :: cs => do
    let (name, rest) ← name? cs
    let (close, rest) ← close? false rest
    some (⟨true, name, [], close⟩, rest)
  | _ => none

theorem attributes_append (cs : List Char) :
    (attributes cs).1.flatMap WrittenAttribute.chars ++ (attributes cs).2 = cs := by
  fun_induction attributes cs with
  | case1 => rfl
  | case2 cs a rest h _ _ ih =>
    rw [(attribute?_eq_some h).1]
    simpa using ih

theorem close?_eq_some {slash : Bool} {cs close rest : List Char}
    (h : close? slash cs = some (close, rest)) : cs = close ++ rest := by
  have hcs := List.takeWhile_append_dropWhile (p := isBlank) (l := cs)
  unfold close? at h
  split at h
  · next r hd => cases h; rw [hd] at hcs; simp [hcs]
  · next r hd =>
    split at h
    · cases h; rw [hd] at hcs; simp [hcs]
    · cases h
  · cases h

theorem startTag?_eq_some {cs rest : List Char} {t : WrittenTag}
    (h : startTag? cs = some (t, rest)) : cs = t.chars ++ rest := by
  unfold startTag? at h
  split at h
  · next cs =>
    simp only [Option.bind_eq_bind, Option.bind_eq_some_iff, Option.some.injEq,
      Prod.mk.injEq, Prod.exists] at h
    obtain ⟨name, r, hn, close, s, hc, rfl, rfl⟩ := h
    have hr := attributes_append r
    rw [close?_eq_some hc] at hr
    rw [name?_eq_some hn]
    simpa [WrittenTag.chars, WrittenTag.front] using hr.symm
  · cases h

theorem endTag?_eq_some {cs rest : List Char} {t : WrittenTag}
    (h : endTag? cs = some (t, rest)) : cs = t.chars ++ rest := by
  unfold endTag? at h
  split at h
  · next cs =>
    simp only [Option.bind_eq_bind, Option.bind_eq_some_iff, Option.some.injEq,
      Prod.mk.injEq, Prod.exists] at h
    obtain ⟨name, r, hn, close, s, hc, rfl, rfl⟩ := h
    rw [name?_eq_some hn, close?_eq_some hc]
    simp [WrittenTag.chars, WrittenTag.front]
  · cases h

end MarkupTemplate
