import MarkupTemplate.Proofs.Markup.Escaping
import MarkupTemplate.Proofs.Markup.TagTokens
import MarkupTemplate.Proofs.Results
import MarkupTemplate.Render.Execute

/-!
# What a start tag with computed attributes holds

A start tag is written with attributes of the source and with attributes whose values are computed
(`TagPlan.outputs`). If the parts of its plan are those of a tag and the computed attributes have names, what
is written is a tag of the grammar whatever the values are (`TagPlan.isStart_written`). Read again, it is one
token with these attributes, of which those with computed values have the values that were meant
(`TagPlan.reads_startTag`).
-/

namespace MarkupTemplate

open Text

namespace StaticAttribute

/-- The attribute as it is written. -/
def written (a : StaticAttribute) : WrittenAttribute :=
  writtenAttribute a.leading a.name a.equals a.value a.quote

theorem source_eq (a : StaticAttribute) : a.source = String.ofList a.written.chars :=
  attributeSource_eq ..

/-- The attribute is one of the grammar, with no more than a name if it has no value. -/
structure IsReadable (a : StaticAttribute) : Prop where
  wellFormed : a.written.IsWellFormed
  valueless : a.value = none → a.equals = none ∧ a.quote = none

end StaticAttribute

/-- An attribute of a start tag: one of the source, or one with a computed value. -/
inductive TagOutput where
  | kept (a : StaticAttribute)
  /-- Written with the blanks, the name, the equals sign and the quotes of `a`. -/
  | computed (a : StaticAttribute) (v : Value)

namespace TagOutput

/-- What a computed value stands for in an attribute. -/
def meant (format : ValueFormatter) (name : String) : Value → String
  | .bool true => name
  | v => format v

/-- The attribute as it is written. -/
def written (format : ValueFormatter) : TagOutput → WrittenAttribute
  | kept a => a.written
  | computed a v =>
    writtenAttribute a.leading a.name a.equals (some (escapeAttribute (meant format a.name v)))
      (some (a.quote.getD '"'))

/-- An attribute with this value is dropped. -/
def drops : Value → Bool
  | .nothing => true
  | .bool false => true
  | _ => false

/-- What is written for an attribute of the source with a computed value, unless it is dropped. -/
def rewritten? (a : StaticAttribute) (v : Value) : Option TagOutput :=
  if v.isDefault then some (.kept a)
  else if drops v then none
  else some (.computed a v)

/-- What is written for a computed value whose attribute the source does not have, unless it is
dropped. -/
def added? (entry : String × Value) : Option TagOutput :=
  if entry.2.isDefault then none else rewritten? ⟨entry.1, " ", none, none, none⟩ entry.2

/-- What is written for the attributes of the source, and the computed values that none of them takes. -/
def ofAttributes (values : ComputedValues) : List StaticAttribute → List TagOutput × ComputedValues
  | [] => ([], values)
  | a :: rest =>
    match values.take? a.name with
    | none => (.kept a :: (ofAttributes values rest).1, (ofAttributes values rest).2)
    | some (v, values) =>
      ((rewritten? a v).toList ++ (ofAttributes values rest).1, (ofAttributes values rest).2)

end TagOutput

namespace TagPlan

/-- The attributes that the start tag is written with. -/
def outputs (tag : TagPlan) (values : ComputedValues) : List TagOutput :=
  (TagOutput.ofAttributes values tag.attributes).1 ++
    (TagOutput.ofAttributes values tag.attributes).2.filterMap TagOutput.added?

/-- The computed values by name, if these are the values of the expressions in order. -/
def valuesOf (tag : TagPlan) (vs : List Value) : ComputedValues :=
  (tag.computed.zip vs).foldl (fun values entry => values.put entry.1.name entry.2) []

/-- The start tag as it is written. -/
def written (format : ValueFormatter) (tag : TagPlan) (values : ComputedValues) : WrittenTag :=
  ⟨false, tag.name.toList, (tag.outputs values).map (TagOutput.written format), tag.close.toList⟩

/-- The parts of the source that the plan holds are parts of a tag. -/
structure IsReadable (tag : TagPlan) : Prop where
  name : isName tag.name.toList
  attributes : ∀ a ∈ tag.attributes, a.IsReadable
  close : IsClose tag.close.toList

end TagPlan

/-! ### The text that is written -/

/-- The attributes of outputs, one behind the other. -/
def TagOutput.text (format : ValueFormatter) (outputs : List TagOutput) : String :=
  String.ofList ((outputs.map (written format)).flatMap WrittenAttribute.chars)

namespace TagOutput

variable {format : ValueFormatter}

theorem text_append (xs ys : List TagOutput) : text format (xs ++ ys) = text format xs ++ text format ys := by
  simp [text]

theorem text_singleton (o : TagOutput) : text format [o] = String.ofList (o.written format).chars := by
  simp [text]

theorem text_kept (a : StaticAttribute) : text format [.kept a] = a.source := by
  rw [text_singleton, a.source_eq]
  rfl

theorem text_computed (a : StaticAttribute) (v : Value) : text format [.computed a v] =
    attributeSource a.leading a.name a.equals (some (escapeAttribute (meant format a.name v)))
      (some (a.quote.getD '"')) := by
  rw [text_singleton, attributeSource_eq]
  rfl

theorem attributeText_eq (name : String) (v : Value) : attributeText format name v =
    if v.isDefault || drops v then none else some (escapeAttribute (meant format name v)) := by
  cases v with
  | bool b => cases b <;> rfl
  | _ => rfl

theorem text_rewritten? (a : StaticAttribute) (v : Value) :
    a.rewritten format v = text format (rewritten? a v).toList := by
  unfold StaticAttribute.rewritten rewritten?
  rw [attributeText_eq]
  cases v.isDefault with
  | true => exact (text_kept a).symm
  | false =>
    cases drops v with
    | true => rfl
    | false => simp [text_computed]

theorem text_added? (entry : String × Value) :
    newAttribute format entry = text format (added? entry).toList := by
  unfold newAttribute added? rewritten?
  rw [attributeText_eq]
  cases entry.2.isDefault with
  | true => rfl
  | false =>
    cases drops entry.2 with
    | true => rfl
    | false => simp [text_computed]

theorem writeAttributes_eq (values : ComputedValues) (attributes : List StaticAttribute) :
    writeAttributes format values attributes =
      (text format (ofAttributes values attributes).1, (ofAttributes values attributes).2) := by
  induction attributes generalizing values with
  | nil => rfl
  | cons a attributes ih =>
    unfold writeAttributes ofAttributes
    cases values.take? a.name with
    | none =>
      dsimp only
      rw [ih, ← List.singleton_append, text_append, text_kept]
    | some found =>
      dsimp only
      rw [ih, text_append, text_rewritten?]

theorem text_filterMap (values : ComputedValues) :
    String.join (values.map (newAttribute format)) = text format (values.filterMap added?) := by
  induction values with
  | nil => rfl
  | cons entry values ih =>
    rw [List.map_cons, String.join_cons, ih, text_added?, ← text_append]
    congr 1
    cases h : added? entry with
    | none => rw [List.filterMap_cons_none h]; rfl
    | some o => rw [List.filterMap_cons_some h]; rfl

end TagOutput

theorem TagPlan.startTag_eq (format : ValueFormatter) (tag : TagPlan) (values : ComputedValues) :
    tag.startTag format values = "<" ++ tag.name ++ TagOutput.text format (tag.outputs values) ++ tag.close := by
  rw [startTag, TagOutput.writeAttributes_eq]
  dsimp only
  rw [TagOutput.text_filterMap, outputs, TagOutput.text_append]
  simp only [String.append_assoc]

theorem TagPlan.startTag_eq_written (format : ValueFormatter) (tag : TagPlan) (values : ComputedValues) :
    tag.startTag format values = String.ofList (tag.written format values).chars := by
  rw [startTag_eq]
  refine String.toList_inj.1 ?_
  simp [written, WrittenTag.chars, WrittenTag.front, TagOutput.text]

/-! ### A tag of the grammar -/

namespace TagOutput

variable {format : ValueFormatter} {a : StaticAttribute} {v : Value} {o : TagOutput}

/-- The output is an attribute of the grammar, with quotes if it is computed. -/
def IsReadable : TagOutput → Prop
  | kept a => a.IsReadable
  | computed a _ => a.IsReadable

theorem isWellFormed_written (h : o.IsReadable) : (o.written format).IsWellFormed := by
  cases o with
  | kept a => exact h.wellFormed
  | computed a v =>
    have h : a.IsReadable := h
    refine ⟨h.wellFormed.leading, h.wellFormed.name, ?_⟩
    rintro w ⟨⟩
    cases hv : a.value with
    | none =>
      obtain ⟨he, hq⟩ := h.valueless hv
      rw [he, hq]
      refine ⟨⟨[], [], rfl, rfl, rfl⟩, ?_, fun hn => by cases hn⟩
      rintro q ⟨⟩
      exact ⟨.inl rfl, quote_notMem_escapeAttribute (.inl rfl) _⟩
    | some value =>
      have hw := h.wellFormed.value ⟨(a.equals.getD "=").toList, a.quote, value.toList⟩ (by
        simp [StaticAttribute.written, writtenAttribute, hv])
      refine ⟨hw.equals, ?_, fun hn => by cases hn⟩
      rintro q ⟨⟩
      have hq : a.quote.getD '"' = '"' ∨ a.quote.getD '"' = '\x27' := by
        cases hq : a.quote with
        | none => exact .inl rfl
        | some q => exact (hw.quoted q hq).1
      exact ⟨hq, quote_notMem_escapeAttribute hq _⟩

theorem isReadable_of_rewritten? (ha : a.IsReadable) (h : o ∈ rewritten? a v) : o.IsReadable := by
  unfold rewritten? at h
  split at h
  · cases h
    exact ha
  · split at h
    · cases h
    · cases h
      exact ha

/-- An attribute with a name of its own, behind one blank. -/
theorem isReadable_new {name : String} (h : isName name.toList) :
    StaticAttribute.IsReadable ⟨name, " ", none, none, none⟩ where
  wellFormed := by
    refine ⟨?_, h, nofun⟩
    dsimp only [StaticAttribute.written, writtenAttribute]
    decide
  valueless _ := ⟨rfl, rfl⟩

theorem isReadable_of_added? {entry : String × Value} (hn : isName entry.1.toList)
    (h : o ∈ added? entry) : o.IsReadable := by
  unfold added? at h
  split at h
  · cases h
  · exact isReadable_of_rewritten? (isReadable_new hn) h

end TagOutput

namespace ComputedValues

variable {values left : ComputedValues} {name : String} {v w : Value} {entry : String × Value}

theorem mem_put (h : entry ∈ put name v values) : entry.1 = name ∨ entry ∈ values := by
  induction values with
  | nil =>
    cases List.mem_singleton.1 h
    exact .inl rfl
  | cons other values ih =>
    unfold put at h
    split at h
    · rcases List.mem_cons.1 h with rfl | h
      · exact .inl rfl
      · exact .inr (List.mem_cons_of_mem _ h)
    · rcases List.mem_cons.1 h with rfl | h
      · exact .inr List.mem_cons_self
      · exact (ih h).imp_right (List.mem_cons_of_mem _)

theorem mem_of_take? (h : values.take? name = some (v, left)) (he : entry ∈ left) : entry ∈ values := by
  induction values generalizing left with
  | nil => cases h
  | cons other values ih =>
    unfold take? at h
    split at h
    · cases h
      exact List.mem_cons_of_mem _ he
    · obtain ⟨⟨w, rest⟩, hrest, hp⟩ := Option.map_eq_some_iff.1 h
      cases hp
      rcases List.mem_cons.1 he with rfl | he
      · exact List.mem_cons_self
      · exact List.mem_cons_of_mem _ (ih hrest he)

end ComputedValues

namespace TagPlan

variable {tag : TagPlan} {format : ValueFormatter} {values : ComputedValues}

theorem mem_valuesOf {vs : List Value} {entry : String × Value} (h : entry ∈ tag.valuesOf vs) :
    ∃ a ∈ tag.computed, entry.1 = a.name := by
  have hfold : ∀ (given : List (ComputedAttribute × Value)) (values : ComputedValues),
      entry ∈ given.foldl (fun values entry => values.put entry.1.name entry.2) values →
        entry ∈ values ∨ ∃ g ∈ given, entry.1 = g.1.name := by
    intro given
    induction given with
    | nil => exact fun values h => .inl h
    | cons g given ih =>
      intro values h
      rcases ih _ h with h | ⟨g', hg', h⟩
      · rcases ComputedValues.mem_put h with h | h
        · exact .inr ⟨g, by simp, h⟩
        · exact .inl h
      · exact .inr ⟨g', by simp [hg'], h⟩
  rcases hfold _ _ h with h | ⟨⟨a, v⟩, hg, h⟩
  · cases h
  · exact ⟨a, (List.of_mem_zip hg).1, h⟩

theorem isReadable_ofAttributes {attributes : List StaticAttribute}
    (ha : ∀ a ∈ attributes, a.IsReadable) (values : ComputedValues) :
    (∀ o ∈ (TagOutput.ofAttributes values attributes).1, o.IsReadable) ∧
      ∀ entry ∈ (TagOutput.ofAttributes values attributes).2, entry ∈ values := by
  induction attributes generalizing values with
  | nil => exact ⟨nofun, fun entry h => h⟩
  | cons a attributes ih =>
    obtain ⟨ha, has⟩ := List.forall_mem_cons.1 ha
    unfold TagOutput.ofAttributes
    cases hv : values.take? a.name with
    | none => exact ⟨List.forall_mem_cons.2 ⟨ha, (ih has values).1⟩, (ih has values).2⟩
    | some found =>
      obtain ⟨v, left⟩ := found
      obtain ⟨houts, hleft⟩ := ih has left
      refine ⟨fun o ho => ?_, fun entry he => ComputedValues.mem_of_take? hv (hleft entry he)⟩
      rcases List.mem_append.1 ho with ho | ho
      · exact TagOutput.isReadable_of_rewritten? ha (Option.mem_toList.1 ho)
      · exact houts o ho

theorem isReadable_outputs (h : tag.IsReadable) (hn : ∀ entry ∈ values, isName entry.1.toList) :
    ∀ o ∈ tag.outputs values, o.IsReadable := by
  obtain ⟨houts, hleft⟩ := isReadable_ofAttributes h.attributes values
  intro o ho
  rcases List.mem_append.1 ho with ho | ho
  · exact houts o ho
  · obtain ⟨entry, he, ho⟩ := List.mem_filterMap.1 ho
    exact TagOutput.isReadable_of_added? (hn entry (hleft entry he)) ho

/-- Whatever the values are, the start tag is one of the grammar. -/
theorem isStart_written (h : tag.IsReadable) (hn : ∀ entry ∈ values, isName entry.1.toList) :
    (tag.written format values).IsStart where
  ending := rfl
  name := h.name
  attributes := by
    intro w hw
    obtain ⟨o, ho, rfl⟩ := List.mem_map.1 hw
    exact TagOutput.isWellFormed_written (isReadable_outputs h hn o ho)
  close := h.close

end TagPlan

/-! ### Reading it again -/

namespace TagOutput

/-- What is read is the output: an attribute of the source as it stood there, or the text that the computed
value stands for, escaped. -/
def Reads (format : ValueFormatter) (o : TagOutput) (read : AttributeToken) : Prop :=
  match o with
  | kept a => read.source = a.source ∧ read.name.text = a.name ∧ read.value.map Token.text = a.value ∧
      read.quote = a.quote
  | computed a v => read.name.text = a.name ∧ read.quote = some (a.quote.getD '"') ∧
      ∃ value, read.value = some value ∧ unescape value.text = .ok (meant format a.name v)

theorem reads_kept {format : ValueFormatter} {a : StaticAttribute} {read : AttributeToken}
    (ha : a.IsReadable) (hr : read.value = none → read.equals = none ∧ read.quote = none)
    (h : read.written = (kept a).written format) : (kept a).Reads format read := by
  have hsource : read.source = a.source := by
    rw [read.source_eq, h, a.source_eq]
    rfl
  have hname := String.toList_inj.1 (congrArg WrittenAttribute.name h)
  have hvalue : (read.value.map Token.text).map (fun v => _) = a.value.map (fun v => _) :=
    congrArg WrittenAttribute.value h
  refine ⟨hsource, hname, ?_⟩
  cases hv : read.value with
  | none =>
    cases hs : a.value with
    | none => exact ⟨rfl, by rw [(hr hv).2, (ha.valueless hs).2]⟩
    | some s => rw [hv, hs] at hvalue; cases hvalue
  | some value =>
    cases hs : a.value with
    | none => rw [hv, hs] at hvalue; cases hvalue
    | some s =>
      rw [hv, hs] at hvalue
      have hvalue := Option.some.inj hvalue
      exact ⟨congrArg some (String.toList_inj.1 (congrArg WrittenValue.text hvalue)),
        congrArg WrittenValue.quote hvalue⟩

theorem reads_computed {format : ValueFormatter} {a : StaticAttribute} {v : Value} {read : AttributeToken}
    (h : read.written = (computed a v).written format) : (computed a v).Reads format read := by
  have hname := String.toList_inj.1 (congrArg WrittenAttribute.name h)
  have hvalue : (read.value.map Token.text).map (fun v => _) = some _ := congrArg WrittenAttribute.value h
  refine ⟨hname, ?_⟩
  cases hv : read.value with
  | none => rw [hv] at hvalue; cases hvalue
  | some value =>
    rw [hv] at hvalue
    have hvalue := Option.some.inj hvalue
    have htext := String.toList_inj.1 (congrArg WrittenValue.text hvalue)
    refine ⟨congrArg WrittenValue.quote hvalue, value, rfl, ?_⟩
    rw [htext, unescape_escapeAttribute]

theorem reads_of_written {format : ValueFormatter} {o : TagOutput} {read : AttributeToken}
    (ho : o.IsReadable) (hr : read.value = none → read.equals = none ∧ read.quote = none)
    (h : read.written = o.written format) : o.Reads format read := by
  cases o with
  | kept a => exact reads_kept ho hr h
  | computed a v => exact reads_computed h

end TagOutput

theorem forall₂_of_map_eq {α β γ : Type} {f : α → γ} {g : β → γ} {R : α → β → Prop} :
    ∀ {xs : List α} {ys : List β}, xs.map f = ys.map g →
      (∀ x ∈ xs, ∀ y ∈ ys, f x = g y → R x y) → List.Forall₂ R xs ys
  | [], [], _, _ => .nil
  | [], _ :: _, h, _ => by cases h
  | _ :: _, [], h, _ => by cases h
  | x :: xs, y :: ys, h, hR => by
    obtain ⟨hxy, h⟩ := List.cons.inj h
    exact .cons (hR x (by simp) y (by simp) hxy)
      (forall₂_of_map_eq h fun x hx y hy => hR x (by simp [hx]) y (by simp [hy]))

/-- A start tag is read as one token, which has the attributes that were written. -/
theorem TagPlan.reads_startTag {tag : TagPlan} {values : ComputedValues} (h : tag.IsReadable)
    (hn : ∀ entry ∈ values, isName entry.1.toList) (format : ValueFormatter) (filename : Option String) :
    ∃ token : Token, Token.scan (tag.startTag format values) filename = [token] ∧ token.kind.OpensTag ∧
      token.tagName?.map Token.text = some tag.name ∧ token.tagClose = tag.close ∧
      token.attributesIn = token.attributes ∧
      List.Forall₂ (TagOutput.Reads format) (tag.outputs values) token.attributes := by
  have hstart : (tag.written format values).IsStart := isStart_written h hn
  obtain ⟨token, hscan, hopens, hchars, htag⟩ := Token.scan_chars hstart filename
  refine ⟨token, ?_, hopens, ?_, ?_, Token.attributesIn_eq hstart hchars htag, ?_⟩
  · rw [startTag_eq_written, hscan]
  · rw [Token.tagName?, htag]
    simp [Token.part, written]
  · rw [Token.tagClose, htag]
    simp [written]
  · have hwritten := Token.written_attributes htag
    exact forall₂_of_map_eq hwritten.symm fun o ho read hread h' =>
      TagOutput.reads_of_written (isReadable_outputs h hn o ho) (Token.valueless_of_mem hread) h'.symm

end MarkupTemplate
