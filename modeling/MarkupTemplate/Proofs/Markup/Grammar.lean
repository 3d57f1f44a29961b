import MarkupTemplate.Markup.Tag
import MarkupTemplate.Proofs.Text.Stops

/-!
# The grammar of tags

What `startTag?` takes off a text is a tag of the grammar (`isStart_of_startTag?`), and a tag of the grammar
is taken off whatever stands behind it (`startTag?_chars_append`). Each reader goes as far as it can, so the
second needs to know that a part never goes on into the next one: behind an attribute stand blanks, an
attribute or the tag's close, and none of them begins like the end of an attribute. End tags have neither
attributes nor a slash in their close (`isEnd_of_endTag?`, `endTag?_chars_append`).
-/

namespace MarkupTemplate

open Text

/-- The text is a name. -/
def isName : List Char → Bool
  | [] => false
  | c :: cs => isNameStart c && cs.all isNameChar

/-- The text ends a tag. -/
def IsClose (cs : List Char) : Prop :=
  ∃ blanks, blanks.all isBlank ∧ (cs = blanks ++ ['>'] ∨ cs = blanks ++ ['/', '>'])

/-- An equals sign with blanks around it, and a value that its quotes delimit or that has none and needs
none. -/
structure WrittenValue.IsWellFormed (v : WrittenValue) : Prop where
  equals : ∃ before after, v.equals = before ++ '=' :: after ∧ before.all isBlank ∧ after.all isBlank
  quoted : ∀ q ∈ v.quote, (q = '"' ∨ q = '\x27') ∧ q ∉ v.text
  bare : v.quote = none → v.text ≠ [] ∧ v.text.all isUnquotedChar

/-- A name behind blanks, with or without a value. -/
structure WrittenAttribute.IsWellFormed (a : WrittenAttribute) : Prop where
  leading : a.leading ≠ [] ∧ a.leading.all isBlank
  name : isName a.name
  value : ∀ v ∈ a.value, v.IsWellFormed

/-- A start or empty tag. -/
structure WrittenTag.IsStart (t : WrittenTag) : Prop where
  ending : t.ending = false
  name : isName t.name
  attributes : ∀ a ∈ t.attributes, a.IsWellFormed
  close : IsClose t.close

/-- An end tag. -/
structure WrittenTag.IsEnd (t : WrittenTag) : Prop where
  ending : t.ending = true
  name : isName t.name
  attributes : t.attributes = []
  close : ∃ blanks, blanks.all isBlank ∧ t.close = blanks ++ ['>']

/-! ### Characters -/

theorem code_of_isNameChar {c : Char} (h : isNameChar c) : 45 ≤ c.toNat ∧ c.toNat ≤ 122 := by
  have halpha : c.isAlpha = (c.isUpper || c.isLower) := rfl
  have hupper : c.isUpper = decide (c.val ≥ 'A'.val ∧ c.val ≤ 'Z'.val) := rfl
  have hlower : c.isLower = (decide (c.val ≥ 'a'.val) && decide (c.val ≤ 'z'.val)) := rfl
  simp only [isNameChar, isNameStart, halpha, hupper, hlower, Char.isDigit, Bool.or_eq_true,
    Bool.and_eq_true, decide_eq_true_eq, beq_iff_eq, UInt32.le_iff_toNat_le, ge_iff_le] at h
  have : c.toNat = c.val.toNat := rfl
  have : 'A'.val.toNat = 65 ∧ 'Z'.val.toNat = 90 := ⟨rfl, rfl⟩
  have : 'a'.val.toNat = 97 ∧ 'z'.val.toNat = 122 := ⟨rfl, rfl⟩
  have : '0'.val.toNat = 48 ∧ '9'.val.toNat = 57 := ⟨rfl, rfl⟩
  rcases h with (((((h | h) | rfl) | rfl) | h) | rfl) | rfl
  · omega
  · omega
  case inl.inl.inr => omega
  all_goals decide

theorem isBlank_of_isNameChar {c : Char} (h : isNameChar c) : isBlank c = false := by
  have := code_of_isNameChar h
  simp only [isBlank, Bool.or_eq_false_iff, Bool.and_eq_false_iff, decide_eq_false_iff_not,
    beq_eq_false_iff_ne]
  omega

theorem isNameChar_of_isBlank {c : Char} (h : isBlank c) : isNameChar c = false := by
  cases hc : isNameChar c with
  | false => rfl
  | true => rw [isBlank_of_isNameChar hc] at h; cases h

theorem isNameChar_of_isNameStart {c : Char} (h : isNameStart c) : isNameChar c := by
  simp [isNameChar, h]

theorem isUnquotedChar_of_isBlank {c : Char} (h : isBlank c) : isUnquotedChar c = false := by
  simp [isUnquotedChar, h]

/-! ### Names -/

theorem isName_of_name? {cs name rest : List Char} (h : name? cs = some (name, rest)) : isName name := by
  cases cs with
  | nil => cases h
  | cons c cs =>
    simp only [name?] at h
    split at h
    · next hc =>
      cases h
      simp [isName, hc]
    · cases h

theorem name?_append {name rest : List Char} (h : isName name) (hr : Stops isNameChar rest) :
    name? (name ++ rest) = some (name, rest) := by
  cases name with
  | nil => cases h
  | cons c name =>
    obtain ⟨hc, hname⟩ := Bool.and_eq_true_iff.1 h
    rw [List.cons_append, name?, if_pos hc, takeWhile_of_stops hname hr, dropWhile_of_stops hname hr]

theorem stops_isBlank_of_isName {name : List Char} (h : isName name) (rest : List Char) :
    Stops isBlank (name ++ rest) := by
  cases name with
  | nil => cases h
  | cons c name =>
    obtain ⟨hc, -⟩ := Bool.and_eq_true_iff.1 h
    exact .cons (isBlank_of_isNameChar (isNameChar_of_isNameStart hc))

/-! ### Values -/

namespace WrittenValue

variable {v : WrittenValue} {cs text rest : List Char} {quote : Option Char}

/-- What a reader of values finds, behind any equals sign. -/
theorem isWellFormed_of_value? (h : value? cs = some (quote, text, rest)) {equals : List Char}
    (he : ∃ before after, equals = before ++ '=' :: after ∧ before.all isBlank ∧ after.all isBlank) :
    IsWellFormed ⟨equals, quote, text⟩ := by
  have hsplit : ∀ {q : Char} {cs front behind : List Char}, splitFirst q cs = some (front, behind) →
      q ∉ front := by
    intro q cs front behind h
    unfold splitFirst at h
    split at h
    · cases h
    · cases h
      intro hq
      simpa using List.mem_takeWhile_imp hq
  unfold value? at h
  split at h
  · obtain ⟨⟨t, r⟩, hs, hp⟩ := Option.map_eq_some_iff.1 h
    cases hp
    exact ⟨he, fun q hq => by cases hq; exact ⟨.inl rfl, hsplit hs⟩, fun hn => by cases hn⟩
  · obtain ⟨⟨t, r⟩, hs, hp⟩ := Option.map_eq_some_iff.1 h
    cases hp
    exact ⟨he, fun q hq => by cases hq; exact ⟨.inr rfl, hsplit hs⟩, fun hn => by cases hn⟩
  · dsimp only at h
    split at h
    · cases h
    · next hne =>
      cases h
      exact ⟨he, fun q hq => (by cases hq), fun _ => ⟨by simpa using hne, by simp⟩⟩

theorem splitFirst_append {q : Char} (h : q ∉ text) :
    splitFirst q (text ++ q :: rest) = some (text, rest) := by
  have hall : text.all (· != q) := List.all_eq_true.2 fun c hc => by
    simpa using fun he : c = q => h (he ▸ hc)
  have hstops : Stops (· != q) (q :: rest) := .cons (by simp)
  rw [splitFirst, dropWhile_of_stops hall hstops, takeWhile_of_stops hall hstops]

theorem value?_quoted_append (hv : v.IsWellFormed) (hr : Stops isUnquotedChar rest) :
    value? (v.quoted ++ rest) = some (v.quote, v.text, rest) := by
  obtain ⟨equals, quote, text⟩ := v
  cases quote with
  | some q =>
    obtain ⟨hq, htext⟩ := hv.quoted q rfl
    have hs : splitFirst q (text ++ q :: rest) = some (text, rest) := splitFirst_append htext
    rcases hq with rfl | rfl <;> simp [quoted, value?, hs]
  | none =>
    obtain ⟨hne, hall⟩ := hv.bare rfl
    cases text with
    | nil => exact absurd rfl hne
    | cons c text =>
      -- the first character is no quote
      have hc : isUnquotedChar c := List.all_eq_true.1 hall c (by simp)
      have htake := takeWhile_of_stops hall hr
      have hdrop := dropWhile_of_stops hall hr
      unfold value?
      split
      · next heq => cases heq; exact absurd hc (by decide)
      · next heq => cases heq; exact absurd hc (by decide)
      · simp only [quoted, htake, hdrop]
        rfl

theorem stops_isBlank_quoted (hv : v.IsWellFormed) (rest : List Char) :
    Stops isBlank (v.quoted ++ rest) := by
  obtain ⟨equals, quote, text⟩ := v
  cases quote with
  | some q => rcases (hv.quoted q rfl).1 with rfl | rfl <;> exact .cons (by decide)
  | none =>
    obtain ⟨hne, hall⟩ := hv.bare rfl
    cases text with
    | nil => exact absurd rfl hne
    | cons c text =>
      have hc : isUnquotedChar c := List.all_eq_true.1 hall c (by simp)
      refine .cons ?_
      cases hb : isBlank c with
      | false => rfl
      | true => rw [isUnquotedChar_of_isBlank hb] at hc; cases hc

theorem isWellFormed_of_valuePart? {value : Option WrittenValue} (h : valuePart? cs = some (value, rest)) :
    ∀ v ∈ value, v.IsWellFormed := by
  unfold valuePart? at h
  split at h
  · next r hd =>
    obtain ⟨⟨q, t, s⟩, hv, hp⟩ := Option.map_eq_some_iff.1 h
    cases hp
    intro v hv'
    cases hv'
    exact isWellFormed_of_value? hv ⟨_, _, rfl, by simp, by simp⟩
  · cases h
    nofun

theorem valuePart?_chars_append (hv : v.IsWellFormed) (hr : Stops isUnquotedChar rest) :
    valuePart? (v.chars ++ rest) = some (some v, rest) := by
  obtain ⟨before, after, he, hbefore, hafter⟩ := hv.equals
  have hcs : v.chars ++ rest = before ++ '=' :: (after ++ (v.quoted ++ rest)) := by
    rw [chars, he]
    simp
  have heq : Stops isBlank ('=' :: (after ++ (v.quoted ++ rest))) := .cons (by decide)
  have hquoted := stops_isBlank_quoted hv rest
  rw [hcs, valuePart?, dropWhile_of_stops hbefore heq, takeWhile_of_stops hbefore heq]
  show (value? (List.dropWhile isBlank (after ++ (v.quoted ++ rest)))).map _ = _
  rw [dropWhile_of_stops hafter hquoted, takeWhile_of_stops hafter hquoted, value?_quoted_append hv hr, ← he]
  rfl

end WrittenValue

/-! ### Attributes -/

/-- What stands behind an attribute of a tag: neither its name nor its value can go on there, and no
equals sign follows. -/
structure EndsAttribute (rest : List Char) : Prop where
  name : Stops isNameChar rest
  value : Stops isUnquotedChar rest
  equals : (rest.dropWhile isBlank).head? ≠ some '='

/-- Blanks, at least one unless a closing character follows, and then no equals sign. -/
theorem EndsAttribute.of_blanks {blanks rest : List Char} {c : Char} (hb : blanks.all isBlank)
    (hc : isBlank c = false) (he : c ≠ '=') (h : blanks = [] → c = '>' ∨ c = '/') :
    EndsAttribute (blanks ++ c :: rest) where
  name := by
    cases blanks with
    | nil => rcases h rfl with rfl | rfl <;> exact .cons (by decide)
    | cons b blanks => exact .cons (isNameChar_of_isBlank (List.all_eq_true.1 hb b (by simp)))
  value := by
    cases blanks with
    | nil => rcases h rfl with rfl | rfl <;> exact .cons (by decide)
    | cons b blanks => exact .cons (isUnquotedChar_of_isBlank (List.all_eq_true.1 hb b (by simp)))
  equals := by
    rw [dropWhile_of_stops hb (.cons hc)]
    simpa using he

theorem IsClose.endsAttribute {close : List Char} (h : IsClose close) (rest : List Char) :
    EndsAttribute (close ++ rest) := by
  obtain ⟨blanks, hb, rfl | rfl⟩ := h
  · rw [List.append_assoc]
    exact .of_blanks hb (by decide) (by decide) fun _ => .inl rfl
  · rw [List.append_assoc]
    exact .of_blanks hb (by decide) (by decide) fun _ => .inr rfl

namespace WrittenAttribute

variable {a : WrittenAttribute} {cs rest : List Char}

theorem isWellFormed_of_looseAttribute? (h : looseAttribute? cs = some (a, rest)) : a.IsWellFormed := by
  unfold looseAttribute? at h
  dsimp only at h
  split at h
  · cases h
  · next hne =>
    obtain ⟨⟨name, r⟩, hn, h⟩ := Option.bind_eq_some_iff.1 h
    cases h
    refine ⟨⟨by simpa using hne, by simp⟩, isName_of_name? hn, ?_⟩
    cases hv : valuePart? r with
    | none => nofun
    | some part => exact WrittenValue.isWellFormed_of_valuePart? hv

theorem endsAttribute (ha : a.IsWellFormed) (rest : List Char) : EndsAttribute (a.chars ++ rest) := by
  obtain ⟨hne, hall⟩ := ha.leading
  have hname := ha.name
  rw [chars, List.append_assoc, List.append_assoc]
  cases hn : a.name with
  | nil => rw [hn] at hname; cases hname
  | cons c name =>
    rw [hn] at hname
    obtain ⟨hc, -⟩ := Bool.and_eq_true_iff.1 hname
    refine .of_blanks hall (isBlank_of_isNameChar (isNameChar_of_isNameStart hc)) ?_
      fun h => absurd h hne
    rintro rfl
    exact absurd hc (by decide)

/-- A name ends in front of the blanks and the equals sign of a value. -/
theorem stops_isNameChar_value {v : WrittenValue} (hv : v.IsWellFormed) (rest : List Char) :
    Stops isNameChar (v.chars ++ rest) := by
  obtain ⟨before, after, he, hbefore, -⟩ := hv.equals
  rw [WrittenValue.chars, he]
  cases before with
  | nil => exact .cons (by decide)
  | cons b before => exact .cons (isNameChar_of_isBlank (List.all_eq_true.1 hbefore b (by simp)))

theorem attribute?_chars_append (ha : a.IsWellFormed) (hr : EndsAttribute rest) :
    attribute? (a.chars ++ rest) = some (a, rest) := by
  obtain ⟨leading, name, value⟩ := a
  obtain ⟨hne, hall⟩ := ha.leading
  have hname : isName name := ha.name
  -- each part is read as far as it goes, so what matters is where the part behind it begins
  have hvalue : valuePart? ((value.map WrittenValue.chars).getD [] ++ rest) = some (value, rest) := by
    cases value with
    | none =>
      unfold valuePart?
      split
      · next hd =>
        rw [Option.map_none, Option.getD_none, List.nil_append] at hd
        exact absurd (by rw [hd]; rfl) hr.equals
      · rfl
    | some v => exact WrittenValue.valuePart?_chars_append (ha.value v rfl) hr.value
  have hstops : Stops isNameChar ((value.map WrittenValue.chars).getD [] ++ rest) := by
    cases value with
    | none => exact hr.name
    | some v => exact stops_isNameChar_value (ha.value v rfl) rest
  have hblank := stops_isBlank_of_isName hname ((value.map WrittenValue.chars).getD [] ++ rest)
  have hcs : chars ⟨leading, name, value⟩ ++ rest =
      leading ++ (name ++ ((value.map WrittenValue.chars).getD [] ++ rest)) := by
    simp only [chars, List.append_assoc]
  rw [hcs]
  unfold attribute?
  rw [takeWhile_of_stops hall hblank, dropWhile_of_stops hall hblank]
  dsimp only
  rw [if_neg (by simpa using hne), name?_append hname hstops]
  show (valuePart? _).bind _ = _
  rw [hvalue]
  rfl

end WrittenAttribute

/-- A tag's close is no attribute. -/
theorem IsClose.looseAttribute? {close : List Char} (h : IsClose close) (rest : List Char) :
    looseAttribute? (close ++ rest) = none := by
  have hblanks : ∀ {blanks : List Char} {c : Char} {rest : List Char}, blanks.all isBlank →
      isNameStart c = false → isBlank c = false →
      MarkupTemplate.looseAttribute? (blanks ++ c :: rest) = none := by
    intro blanks c rest hb hn hc
    unfold MarkupTemplate.looseAttribute?
    dsimp only
    split
    · rfl
    · rw [dropWhile_of_stops hb (.cons hc), name?, hn]
      rfl
  obtain ⟨blanks, hb, rfl | rfl⟩ := h
  · rw [List.append_assoc]
    exact hblanks hb (by decide) (by decide)
  · rw [List.append_assoc]
    exact hblanks hb (by decide) (by decide)

theorem attribute?_eq_none {cs : List Char} (h : looseAttribute? cs = none) : attribute? cs = none := by
  cases ha : attribute? cs with
  | none => rfl
  | some found => rw [looseAttribute?_of_attribute? ha] at h; cases h

section Attributes

variable {as : List WrittenAttribute} {cs close rest : List Char}

theorem isWellFormed_of_attributes (cs : List Char) : ∀ a ∈ (attributes cs).1, a.IsWellFormed := by
  fun_induction attributes cs with
  | case1 => simp
  | case2 cs a rest h _ _ ih =>
    intro b hb
    rcases List.mem_cons.1 hb with rfl | hb
    · exact WrittenAttribute.isWellFormed_of_looseAttribute? (looseAttribute?_of_attribute? h)
    · exact ih b hb

/-- Attributes that another one or the tag's close follows. -/
theorem endsAttribute_of_flatMap (ha : ∀ a ∈ as, a.IsWellFormed) (hc : IsClose close) (rest : List Char) :
    EndsAttribute (as.flatMap WrittenAttribute.chars ++ (close ++ rest)) := by
  cases as with
  | nil => exact hc.endsAttribute rest
  | cons a as =>
    rw [List.flatMap_cons, List.append_assoc]
    exact WrittenAttribute.endsAttribute (ha a (by simp)) _

theorem attributes_append_close (ha : ∀ a ∈ as, a.IsWellFormed) (hc : IsClose close) (rest : List Char) :
    attributes (as.flatMap WrittenAttribute.chars ++ (close ++ rest)) = (as, close ++ rest) := by
  induction as with
  | nil =>
    rw [List.flatMap_nil, List.nil_append]
    unfold attributes
    split
    · rfl
    · next h => rw [attribute?_eq_none (hc.looseAttribute? rest)] at h; cases h
  | cons a as ih =>
    obtain ⟨hwf, hwfs⟩ := List.forall_mem_cons.1 ha
    have hfirst := WrittenAttribute.attribute?_chars_append hwf (endsAttribute_of_flatMap hwfs hc rest)
    rw [List.flatMap_cons, List.append_assoc]
    unfold attributes
    split
    · next h => rw [hfirst] at h; cases h
    · next h =>
      rw [hfirst] at h
      cases h
      dsimp only
      rw [ih hwfs]

end Attributes

/-! ### Tags -/

theorem isClose_of_close? {slash : Bool} {cs close rest : List Char}
    (h : close? slash cs = some (close, rest)) : IsClose close := by
  unfold close? at h
  split at h
  · cases h
    exact ⟨_, by simp, .inl rfl⟩
  · split at h
    · cases h
      exact ⟨_, by simp, .inr rfl⟩
    · cases h
  · cases h

theorem close?_append {close : List Char} (h : IsClose close) (rest : List Char) :
    close? true (close ++ rest) = some (close, rest) := by
  obtain ⟨blanks, hb, rfl | rfl⟩ := h
  · have hstops : Stops isBlank ('>' :: rest) := .cons (by decide)
    rw [List.append_assoc, List.singleton_append, close?, dropWhile_of_stops hb hstops,
      takeWhile_of_stops hb hstops]
    rfl
  · have hstops : Stops isBlank ('/' :: '>' :: rest) := .cons (by decide)
    rw [List.append_assoc, List.cons_append, List.singleton_append, close?, dropWhile_of_stops hb hstops,
      takeWhile_of_stops hb hstops]
    rfl

theorem isStart_of_startTag? {cs rest : List Char} {t : WrittenTag} (h : startTag? cs = some (t, rest)) :
    t.IsStart := by
  unfold startTag? at h
  split at h
  · obtain ⟨⟨name, behind⟩, hn, h⟩ := Option.bind_eq_some_iff.1 h
    obtain ⟨⟨close, rest⟩, hc, h⟩ := Option.bind_eq_some_iff.1 h
    cases h
    exact ⟨rfl, isName_of_name? hn, isWellFormed_of_attributes _, isClose_of_close? hc⟩
  · cases h

theorem startTag?_chars_append {t : WrittenTag} (h : t.IsStart) (rest : List Char) :
    startTag? (t.chars ++ rest) = some (t, rest) := by
  obtain ⟨ending, name, as, close⟩ := t
  obtain rfl : ending = false := h.ending
  have hcs : WrittenTag.chars ⟨false, name, as, close⟩ ++ rest =
      '<' :: (name ++ (as.flatMap WrittenAttribute.chars ++ (close ++ rest))) := by
    simp [WrittenTag.chars, WrittenTag.front]
  have hstops := (endsAttribute_of_flatMap h.attributes h.close rest).name
  have hattributes := attributes_append_close h.attributes h.close rest
  have hclose := close?_append h.close rest
  rw [hcs, startTag?, name?_append h.name hstops]
  show (close? true (attributes _).2).bind _ = _
  rw [hattributes, hclose]
  rfl

/-! ### End tags -/

section EndTags

variable {t : WrittenTag} {cs rest : List Char}

theorem WrittenTag.IsEnd.isClose (h : t.IsEnd) : IsClose t.close := by
  obtain ⟨blanks, hb, hclose⟩ := h.close
  exact ⟨blanks, hb, .inl hclose⟩

theorem WrittenTag.IsEnd.chars_eq (h : t.IsEnd) : t.chars = '<' :: '/' :: (t.name ++ t.close) := by
  simp [chars, front, h.ending, h.attributes]

theorem close?_false_append {close : List Char} (h : ∃ blanks, blanks.all isBlank ∧ close = blanks ++ ['>'])
    (rest : List Char) : close? false (close ++ rest) = some (close, rest) := by
  obtain ⟨blanks, hb, rfl⟩ := h
  have hstops : Stops isBlank ('>' :: rest) := .cons (by decide)
  rw [List.append_assoc, List.singleton_append, close?, dropWhile_of_stops hb hstops,
    takeWhile_of_stops hb hstops]
  rfl

theorem blanks_of_close?_false {close : List Char} (h : close? false cs = some (close, rest)) :
    ∃ blanks, blanks.all isBlank ∧ close = blanks ++ ['>'] := by
  unfold close? at h
  split at h
  · cases h
    exact ⟨_, by simp, rfl⟩
  · cases h
  · cases h

theorem isEnd_of_endTag? (h : endTag? cs = some (t, rest)) : t.IsEnd := by
  unfold endTag? at h
  split at h
  · obtain ⟨⟨name, behind⟩, hn, h⟩ := Option.bind_eq_some_iff.1 h
    obtain ⟨⟨close, rest⟩, hc, h⟩ := Option.bind_eq_some_iff.1 h
    cases h
    exact ⟨rfl, isName_of_name? hn, rfl, blanks_of_close?_false hc⟩
  · cases h

theorem endTag?_chars_append (h : t.IsEnd) (rest : List Char) : endTag? (t.chars ++ rest) = some (t, rest) := by
  have hstops := (h.isClose.endsAttribute rest).name
  have hclose := close?_false_append h.close rest
  have hname := name?_append h.name hstops
  rw [h.chars_eq, List.cons_append, List.cons_append, List.append_assoc, endTag?, hname]
  show (close? false (t.close ++ rest)).bind _ = _
  rw [hclose]
  obtain ⟨ending, name, attributes, close⟩ := t
  obtain rfl : ending = true := h.ending
  obtain rfl : attributes = [] := h.attributes
  rfl

end EndTags

end MarkupTemplate
