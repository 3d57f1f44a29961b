import Mathlib.Data.List.Nodup
import MarkupTemplate.Proofs.Compile.PlannedTags
import MarkupTemplate.Proofs.Results

/-!
# Which attributes a start tag gets

Of the computed attributes with one name the last one gives the value (`TagPlan.lastValue?`). It stands in the
place of the first attribute of the source with that name, and behind all of them if there is none
(`TagPlan.startTag_exact`). Another attribute of the source with the name stays as it is: a value that drops an
attribute leaves the second one, as the tag in `startTag_of_repeatedTag` shows.

Tags are written without the macros, and calls are prepared from their names and parameters alone. With another table
of macros, of the same names and parameters, a call is prepared in the same way or fails in the same way
(`RenderContext.prepareCall_matching`).
-/

/-! ## Start tags -/

namespace MarkupTemplate

/-! ### Computed values by name -/

namespace ComputedValues

variable {values left : ComputedValues} {name other : String} {v : Value}

/-- The names with their values, each name once, with the value that was put last. -/
def ofEntries (entries : List (String × Value)) : ComputedValues :=
  entries.foldl (fun values entry => values.put entry.1 entry.2) []

theorem lookup_cons_eq (key name : String) (w : Value) (rest : ComputedValues) :
    List.lookup name ((key, w) :: rest) = if name = key then some w else List.lookup name rest := by
  rw [List.lookup_cons]
  by_cases h : name = key
  · simp [h]
  · have hb : (name == key) = false := by simpa using h
    rw [hb, if_neg h]

theorem lookup_put (values : ComputedValues) (name other : String) (v : Value) :
    List.lookup other (values.put name v) = if other = name then some v else List.lookup other values := by
  induction values with
  | nil => exact lookup_cons_eq ..
  | cons entry rest ih =>
    obtain ⟨key, w⟩ := entry
    unfold put
    split
    · next hk =>
      subst hk
      rw [lookup_cons_eq, lookup_cons_eq]
      split <;> rfl
    · next hk =>
      rw [lookup_cons_eq, lookup_cons_eq, ih]
      split
      · next h => rw [if_neg (h ▸ hk)]
      · rfl

theorem names_put (values : ComputedValues) (name : String) (v : Value) :
    (values.put name v).map Prod.fst =
      if name ∈ values.map Prod.fst then values.map Prod.fst else values.map Prod.fst ++ [name] := by
  induction values with
  | nil => rfl
  | cons entry rest ih =>
    obtain ⟨key, w⟩ := entry
    unfold put
    split
    · next hk => simp [hk]
    · next hk =>
      have hk : ¬name = key := fun h => hk h.symm
      simp only [List.map_cons, List.mem_cons, hk, false_or, ih]
      split <;> rfl

theorem ofEntries_append_singleton (entries : List (String × Value)) (entry : String × Value) :
    ofEntries (entries ++ [entry]) = (ofEntries entries).put entry.1 entry.2 := by
  rw [ofEntries, List.foldl_append]
  rfl

theorem lookup_ofEntries (entries : List (String × Value)) (name : String) :
    List.lookup name (ofEntries entries) = entries.reverse.lookup name := by
  induction entries using List.reverseRecOn with
  | nil => rfl
  | append_singleton entries entry ih =>
    rw [ofEntries_append_singleton, lookup_put, List.reverse_append, List.reverse_singleton,
      List.singleton_append, lookup_cons_eq, ih]

/-- The names stand in the order in which they are first mentioned. -/
theorem names_ofEntries (entries : List (String × Value)) :
    (ofEntries entries).map Prod.fst = (entries.map Prod.fst).eraseDups := by
  induction entries using List.reverseRecOn with
  | nil => rfl
  | append_singleton entries entry ih =>
    rw [ofEntries_append_singleton, names_put, ih, List.map_append, List.map_singleton, List.eraseDups_append]
    by_cases h : entry.1 ∈ entries.map Prod.fst
    · have hr : [entry.1].removeAll (entries.map Prod.fst) = [] := by simpa [List.removeAll] using h
      rw [if_pos (List.mem_eraseDups.2 h), hr, List.eraseDups_nil, List.append_nil]
    · have hr : [entry.1].removeAll (entries.map Prod.fst) = [entry.1] := by simpa [List.removeAll] using h
      rw [if_neg fun hm => h (List.mem_eraseDups.1 hm), hr]
      rfl

theorem nodup_ofEntries (entries : List (String × Value)) : ((ofEntries entries).map Prod.fst).Nodup := by
  induction entries using List.reverseRecOn with
  | nil => exact List.nodup_nil
  | append_singleton entries entry ih =>
    rw [ofEntries_append_singleton, names_put]
    split
    · exact ih
    · next h => exact List.nodup_append.2 ⟨ih, by simp, fun a ha b hb he => h (List.mem_singleton.1 hb ▸ he ▸ ha)⟩

theorem lookup_of_mem (hd : (values.map Prod.fst).Nodup) {entry : String × Value} (h : entry ∈ values) :
    List.lookup entry.1 values = some entry.2 := by
  induction values with
  | nil => cases h
  | cons first rest ih =>
    obtain ⟨hfirst, hrest⟩ := List.nodup_cons.1 hd
    rw [lookup_cons_eq]
    rcases List.mem_cons.1 h with rfl | h
    · exact if_pos rfl
    · rw [if_neg fun he : entry.1 = first.1 => hfirst (List.mem_map.2 ⟨entry, h, he⟩), ih hrest h]

/-- The values for other names than these. -/
def without (values : ComputedValues) (names : List String) : ComputedValues :=
  values.filter fun entry => entry.1 ∉ names

theorem lookup_without (values : ComputedValues) (names : List String) (name : String) :
    List.lookup name (values.without names) = if name ∈ names then none else List.lookup name values := by
  induction values with
  | nil => split <;> rfl
  | cons entry rest ih =>
    obtain ⟨key, w⟩ := entry
    simp only [without, List.filter_cons, lookup_cons_eq] at ih ⊢
    by_cases hk : key ∈ names
    · rw [if_neg (by simpa using hk), ih]
      by_cases hn : name = key
      · subst hn
        rw [if_pos hk, if_pos hk]
      · rw [if_neg hn]
    · rw [if_pos (by simpa using hk), lookup_cons_eq, ih]
      by_cases hn : name = key
      · subst hn
        rw [if_pos rfl, if_pos rfl, if_neg hk]
      · rw [if_neg hn, if_neg hn]

theorem without_without (values : ComputedValues) (xs ys : List String) :
    (values.without xs).without ys = values.without (xs ++ ys) := by
  simp only [without, List.filter_filter, List.mem_append]
  refine List.filter_congr fun entry _ => ?_
  by_cases hx : entry.1 ∈ xs <;> by_cases hy : entry.1 ∈ ys <;> simp [hx, hy]

theorem names_without (values : ComputedValues) (names : List String) :
    (values.without names).map Prod.fst = (values.map Prod.fst).filter fun name => name ∉ names := by
  rw [without, List.filter_map]
  rfl

/-- What is taken is the value for the name; the values for other names stay. -/
theorem take?_eq (hd : (values.map Prod.fst).Nodup) (name : String) : values.take? name =
    (List.lookup name values).map fun v => (v, values.without [name]) := by
  induction values with
  | nil => rfl
  | cons entry rest ih =>
    obtain ⟨key, w⟩ := entry
    obtain ⟨hkey, hrest⟩ := List.nodup_cons.1 hd
    unfold take?
    rw [lookup_cons_eq]
    by_cases hk : key = name
    · have hsame : without rest [key] = rest := by
        refine List.filter_eq_self.2 fun entry he => ?_
        have hne : entry.1 ≠ key := fun h => hkey (List.mem_map.2 ⟨entry, he, h⟩)
        simpa using hne
      subst hk
      rw [if_pos rfl, if_pos rfl, Option.map_some, without, List.filter_cons_of_neg (by simp)]
      exact congrArg (fun left => some (w, left)) hsame.symm
    · have hn : ¬name = key := fun h => hk h.symm
      have hcons : without ((key, w) :: rest) [name] = (key, w) :: without rest [name] :=
        List.filter_cons_of_pos (by simpa using hk)
      rw [if_neg hk, if_neg hn, ih hrest, Option.map_map, hcons]
      rfl

end ComputedValues

/-! ### Outputs in order -/

namespace TagOutput

variable {values : ComputedValues} {xs ys : List StaticAttribute} {o : TagOutput}

/-- The name of the attribute. -/
def name : TagOutput → String
  | kept a => a.name
  | computed a _ => a.name

theorem name_of_rewritten? {a : StaticAttribute} {v : Value} (h : o ∈ rewritten? a v) : o.name = a.name := by
  unfold rewritten? at h
  split at h
  · cases h
    rfl
  · split at h
    · cases h
    · cases h
      rfl

theorem name_of_added? {entry : String × Value} (h : o ∈ added? entry) : o.name = entry.1 := by
  unfold added? at h
  split at h
  · cases h
  · exact name_of_rewritten? h

theorem ofAttributes_append (values : ComputedValues) (xs ys : List StaticAttribute) :
    ofAttributes values (xs ++ ys) =
      ((ofAttributes values xs).1 ++ (ofAttributes (ofAttributes values xs).2 ys).1,
        (ofAttributes (ofAttributes values xs).2 ys).2) := by
  induction xs generalizing values with
  | nil => rfl
  | cons a xs ih =>
    rw [List.cons_append]
    simp only [ofAttributes]
    cases values.take? a.name with
    | none => simp only [ih, List.cons_append]
    | some found => simp only [ih, List.append_assoc]

theorem name_of_mem_ofAttributes (h : o ∈ (ofAttributes values xs).1) : ∃ a ∈ xs, o.name = a.name := by
  induction xs generalizing values with
  | nil => cases h
  | cons a xs ih =>
    unfold ofAttributes at h
    cases hv : values.take? a.name with
    | none =>
      rw [hv] at h
      rcases List.mem_cons.1 h with rfl | h
      · exact ⟨a, by simp, rfl⟩
      · obtain ⟨b, hb, hn⟩ := ih h
        exact ⟨b, by simp [hb], hn⟩
    | some found =>
      rw [hv] at h
      rcases List.mem_append.1 h with h | h
      · exact ⟨a, by simp, name_of_rewritten? (Option.mem_toList.1 h)⟩
      · obtain ⟨b, hb, hn⟩ := ih h
        exact ⟨b, by simp [hb], hn⟩

/-- The attributes of the source take the values for their names. -/
theorem left_ofAttributes (hd : (values.map Prod.fst).Nodup) (xs : List StaticAttribute) :
    (ofAttributes values xs).2 = values.without (xs.map StaticAttribute.name) := by
  induction xs generalizing values with
  | nil => exact (List.filter_eq_self.2 fun _ _ => by simp).symm
  | cons a xs ih =>
    unfold ofAttributes
    rw [ComputedValues.take?_eq hd]
    cases hv : List.lookup a.name values with
    | none =>
      rw [Option.map_none]
      dsimp only
      rw [ih hd, List.map_cons, ComputedValues.without, ComputedValues.without]
      refine List.filter_congr fun entry he => ?_
      have hne : entry.1 ≠ a.name := by
        have := List.lookup_eq_none_iff.1 hv entry he
        simpa using fun h : entry.1 = a.name => by simp [h] at this
      simp [hne]
    | some v =>
      rw [Option.map_some]
      dsimp only
      rw [ih, ComputedValues.without_without]
      · rfl
      · rw [ComputedValues.names_without]
        exact hd.filter _

/-- Attributes for whose names nothing is computed are kept in order. -/
theorem filter_ofAttributes (hd : (values.map Prod.fst).Nodup) {p : String → Bool}
    (hp : ∀ name, p name → List.lookup name values = none) (xs : List StaticAttribute) :
    ((ofAttributes values xs).1.filter fun o => p o.name) = (xs.filter fun a => p a.name).map kept := by
  induction xs generalizing values with
  | nil => rfl
  | cons a xs ih =>
    unfold ofAttributes
    rw [ComputedValues.take?_eq hd]
    cases hv : List.lookup a.name values with
    | none =>
      rw [Option.map_none]
      dsimp only
      rw [List.filter_cons, List.filter_cons, ih hd hp]
      show (if p a.name then _ else _) = _
      split <;> rfl
    | some v =>
      have hpa : p a.name = false := by
        cases hb : p a.name with
        | false => rfl
        | true => rw [hp _ hb] at hv; cases hv
      have hnone : (rewritten? a v).toList.filter (fun o => p o.name) = [] := by
        refine List.filter_eq_nil_iff.2 fun o ho => ?_
        rw [name_of_rewritten? (Option.mem_toList.1 ho), hpa]
        exact Bool.false_ne_true
      rw [Option.map_some]
      dsimp only
      rw [List.filter_append, hnone, List.nil_append, List.filter_cons, hpa, ih]
      · rfl
      · rw [ComputedValues.names_without]
        exact hd.filter _
      · intro name hname
        rw [ComputedValues.lookup_without, hp name hname]
        split <;> rfl

end TagOutput

/-! ### The last value for a name -/

namespace TagPlan

variable {tag : TagPlan} {vs : List Value} {name : String} {v : Value}

/-- The names of the computed attributes with these values, in order. -/
def entries (tag : TagPlan) (vs : List Value) : List (String × Value) :=
  (tag.computed.map ComputedAttribute.name).zip vs

/-- The value of the last computed attribute with the name. -/
def lastValue? (tag : TagPlan) (vs : List Value) (name : String) : Option Value :=
  (tag.entries vs).reverse.lookup name

/-- The names of computed attributes that the source does not have, as they are first mentioned. -/
def newNames (tag : TagPlan) (vs : List Value) : List String :=
  ((tag.entries vs).map Prod.fst).eraseDups.filter fun name => name ∉ tag.attributes.map StaticAttribute.name

theorem valuesOf_eq (tag : TagPlan) (vs : List Value) :
    tag.valuesOf vs = ComputedValues.ofEntries (tag.entries vs) := by
  rw [valuesOf, ComputedValues.ofEntries, entries, List.zip_map_left, List.foldl_map]
  rfl

theorem lookup_valuesOf (tag : TagPlan) (vs : List Value) (name : String) :
    List.lookup name (tag.valuesOf vs) = tag.lastValue? vs name := by
  rw [valuesOf_eq, ComputedValues.lookup_ofEntries, lastValue?]

theorem nodup_valuesOf (tag : TagPlan) (vs : List Value) : ((tag.valuesOf vs).map Prod.fst).Nodup := by
  rw [valuesOf_eq]
  exact ComputedValues.nodup_ofEntries _

/-- What is written for the names that the source does not have. -/
theorem added_outputs (tag : TagPlan) (vs : List Value) :
    (TagOutput.ofAttributes (tag.valuesOf vs) tag.attributes).2.filterMap TagOutput.added? =
      (tag.newNames vs).filterMap fun name =>
        (tag.lastValue? vs name).bind fun v => TagOutput.added? (name, v) := by
  have hd := nodup_valuesOf tag vs
  have hnames : tag.newNames vs =
      ((tag.valuesOf vs).without (tag.attributes.map StaticAttribute.name)).map Prod.fst := by
    rw [ComputedValues.names_without, valuesOf_eq, ComputedValues.names_ofEntries, newNames]
  rw [TagOutput.left_ofAttributes hd, hnames, List.filterMap_map]
  refine List.filterMap_congr fun entry he => ?_
  have hentry := ComputedValues.lookup_of_mem hd (List.mem_filter.1 he).1
  rw [Function.comp, ← lookup_valuesOf, hentry, Option.bind_some]

/-- The outputs around the place of the first attribute with a computed name. -/
theorem ofAttributes_of_first {before after : List StaticAttribute} {a : StaticAttribute}
    (hfirst : a.name ∉ before.map StaticAttribute.name) (hv : tag.lastValue? vs a.name = some v) :
    ∃ left right, (TagOutput.ofAttributes (tag.valuesOf vs) (before ++ a :: after)).1 =
        left ++ (TagOutput.rewritten? a v).toList ++ right ∧
      (∀ o ∈ left, ∃ b ∈ before, o.name = b.name) ∧ (∀ o ∈ right, ∃ b ∈ after, o.name = b.name) ∧
      (right.filter fun o => o.name = a.name) = (after.filter fun b => b.name = a.name).map .kept := by
  have hd := nodup_valuesOf tag vs
  let behind := (tag.valuesOf vs).without (before.map StaticAttribute.name)
  have hbehind : (behind.map Prod.fst).Nodup := by
    rw [ComputedValues.names_without]
    exact hd.filter _
  have hleft : (behind.without [a.name]).map Prod.fst |>.Nodup := by
    rw [ComputedValues.names_without]
    exact hbehind.filter _
  have htake : behind.take? a.name = some (v, behind.without [a.name]) := by
    rw [ComputedValues.take?_eq hbehind, ComputedValues.lookup_without, if_neg hfirst, lookup_valuesOf, hv]
    rfl
  refine ⟨(TagOutput.ofAttributes (tag.valuesOf vs) before).1,
    (TagOutput.ofAttributes (behind.without [a.name]) after).1, ?_,
    fun o => TagOutput.name_of_mem_ofAttributes, fun o => TagOutput.name_of_mem_ofAttributes, ?_⟩
  · rw [TagOutput.ofAttributes_append, TagOutput.left_ofAttributes hd, TagOutput.ofAttributes, htake,
      List.append_assoc]
  · have h := TagOutput.filter_ofAttributes hleft (p := fun name => name = a.name) (fun name hname => by
      rw [ComputedValues.lookup_without, if_pos (by simpa using hname)]) after
    exact h

end TagPlan

/-! ### The start tag -/

/-- The values of computed attributes in order, up to the first that fails. -/
def RenderContext.attributeValues (context : RenderContext) (scope : Scope) (computed : List ComputedAttribute) :
    Except RenderFault (List Value) :=
  computed.mapM fun a => context.value scope a.value

namespace TagPlan

variable {context : RenderContext} {scope : Scope} {tag : TagPlan} {vs : List Value}

theorem computedValues_eq (computed : List ComputedAttribute) (given : ComputedValues) :
    context.computedValues scope given computed =
      (fun vs => (computed.zip vs).foldl (fun values entry => values.put entry.1.name entry.2) given) <$>
        context.attributeValues scope computed := by
  induction computed generalizing given with
  | nil => rfl
  | cons a computed ih =>
    rw [RenderContext.computedValues, RenderContext.attributeValues, List.mapM_cons]
    cases context.value scope a.value with
    | error fault => rfl
    | ok v =>
      refine (ih _).trans ?_
      rw [RenderContext.attributeValues]
      generalize computed.mapM (m := Except RenderFault) _ = given
      cases given <;> rfl

/-- The expressions are evaluated in order; one that fails makes the start tag fail. -/
theorem startTag_eq_map (context : RenderContext) (scope : Scope) (tag : TagPlan) :
    context.startTag scope tag = (fun vs => tag.startTag context.format (tag.valuesOf vs)) <$>
      context.attributeValues scope tag.computed := by
  rw [RenderContext.startTag, computedValues_eq]
  cases context.attributeValues scope tag.computed <;> rfl

/-- If the computed attributes have these values, the start tag consists of what is written for the attributes
of the source and of the new attributes. Attributes for whose names nothing is computed stand as in the source.
The last value for a name decides what stands in the place of the first attribute of the source with the name;
later ones stand as in the source. New attributes have the last value for their names. -/
theorem startTag_exact (h : context.attributeValues scope tag.computed = .ok vs) :
    ∃ source new : List TagOutput,
      context.startTag scope tag =
        .ok ("<" ++ tag.name ++ TagOutput.text context.format (source ++ new) ++ tag.close) ∧
      (source.filter fun o => tag.lastValue? vs o.name = none) =
        (tag.attributes.filter fun a => tag.lastValue? vs a.name = none).map .kept ∧
      (∀ before a after v, tag.attributes = before ++ a :: after →
        a.name ∉ before.map StaticAttribute.name → tag.lastValue? vs a.name = some v →
        ∃ left right, source = left ++ (TagOutput.rewritten? a v).toList ++ right ∧
          (∀ o ∈ left, ∃ b ∈ before, o.name = b.name) ∧ (∀ o ∈ right, ∃ b ∈ after, o.name = b.name) ∧
          (right.filter fun o => o.name = a.name) = (after.filter fun b => b.name = a.name).map .kept) ∧
      new = (tag.newNames vs).filterMap fun name =>
        (tag.lastValue? vs name).bind fun v => TagOutput.added? (name, v) := by
  refine ⟨(TagOutput.ofAttributes (tag.valuesOf vs) tag.attributes).1, _, ?_, ?_, ?_, added_outputs tag vs⟩
  · rw [startTag_eq_map, h]
    exact congrArg Except.ok (startTag_eq ..)
  · refine TagOutput.filter_ofAttributes (nodup_valuesOf tag vs) (p := fun name => tag.lastValue? vs name = none)
      (fun name hname => ?_) tag.attributes
    rw [lookup_valuesOf]
    exact of_decide_eq_true hname
  · intro before a after v hs hfirst hv
    rw [hs]
    exact ofAttributes_of_first hfirst hv

/-- Two of the attributes get new values, one of them twice; one is new and given twice, one keeps its value. -/
def mergedTag : TemplateSource :=
  ⟨"<p class='a' id=i lang " ++
    "tal:attributes=\"class 1; title 2; lang default; title not:nothing; class string:b'c\">x</p>", none⟩

/-- The first of two attributes with one name is dropped. -/
def repeatedTag : TemplateSource :=
  ⟨"<p class=\"a\" class=\"b\" tal:attributes=\"class nothing\">x</p>", none⟩

/-- The tag of a block that is one element. -/
def onlyTag? (block : Block) : Option TagPlan :=
  match block with
  | [.element tag _] => some tag
  | _ => none

/-- Nothing but values of the language and their texts. -/
def plainContext : RenderContext :=
  ⟨[], (HostRuntime.ofLibraries []).evaluate, Value.text⟩

theorem startTag_exact_mergedTag : ∃ program tag vs,
    Program.compile (MemoryStore.ofTexts []).provider .markup mergedTag = .ok program ∧
    onlyTag? program.body = some tag ∧ plainContext.attributeValues (.ofGlobals []) tag.computed = .ok vs ∧
    ∃ source new : List TagOutput,
      plainContext.startTag (.ofGlobals []) tag =
        .ok ("<" ++ tag.name ++ TagOutput.text Value.text (source ++ new) ++ tag.close) ∧
      plainContext.startTag (.ofGlobals []) tag = .ok "<p class='b&apos;c' id=i lang title=\"title\">" ∧
      new.map TagOutput.name = ["title"] := by
  have hc : (Program.compile (MemoryStore.ofTexts []).provider .markup mergedTag).toOption.any fun program =>
      (onlyTag? program.body).any fun tag =>
        (plainContext.attributeValues (.ofGlobals []) tag.computed).toOption.any fun vs =>
          tag.startTag Value.text (tag.valuesOf vs) = "<p class='b&apos;c' id=i lang title=\"title\">" ∧
          ((tag.newNames vs).filterMap fun name => (tag.lastValue? vs name).bind fun v =>
            TagOutput.added? (name, v)).map TagOutput.name = ["title"] := by
    decide +kernel
  obtain ⟨program, hp, hc⟩ := (Option.any_eq_true ..).1 hc
  obtain ⟨tag, htag, hc⟩ := (Option.any_eq_true ..).1 hc
  obtain ⟨vs, hvs, hc⟩ := (Option.any_eq_true ..).1 hc
  obtain ⟨htext, hnew⟩ := of_decide_eq_true hc
  have hvs := eq_ok_of_toOption hvs
  obtain ⟨source, new, hs, -, -, rfl⟩ := startTag_exact hvs
  refine ⟨program, tag, vs, eq_ok_of_toOption hp, htag, hvs, source, _, hs, ?_, hnew⟩
  rw [startTag_eq_map, hvs]
  exact congrArg Except.ok htext

/-- The name of entries that are one name without a value. -/
def onlyNothing? : List (String × Value) → Option String
  | [(name, .nothing)] => some name
  | _ => none

theorem eq_of_onlyNothing? {entries : List (String × Value)} {name : String}
    (h : onlyNothing? entries = some name) : entries = [(name, .nothing)] := by
  unfold onlyNothing? at h
  split at h
  · cases h
    rfl
  · cases h

/-- The value for the name of both attributes is nothing, and yet the tag has one with the name. -/
theorem startTag_of_repeatedTag : ∃ program tag vs,
    Program.compile (MemoryStore.ofTexts []).provider .markup repeatedTag = .ok program ∧
    onlyTag? program.body = some tag ∧ plainContext.attributeValues (.ofGlobals []) tag.computed = .ok vs ∧
    tag.entries vs = [("class", .nothing)] ∧
    plainContext.startTag (.ofGlobals []) tag = .ok "<p class=\"b\">" := by
  have hc : (Program.compile (MemoryStore.ofTexts []).provider .markup repeatedTag).toOption.any fun program =>
      (onlyTag? program.body).any fun tag =>
        (plainContext.attributeValues (.ofGlobals []) tag.computed).toOption.any fun vs =>
          onlyNothing? (tag.entries vs) = some "class" ∧
            tag.startTag Value.text (tag.valuesOf vs) = "<p class=\"b\">" := by
    decide +kernel
  obtain ⟨program, hp, hc⟩ := (Option.any_eq_true ..).1 hc
  obtain ⟨tag, htag, hc⟩ := (Option.any_eq_true ..).1 hc
  obtain ⟨vs, hvs, hc⟩ := (Option.any_eq_true ..).1 hc
  obtain ⟨hentries, htext⟩ := of_decide_eq_true hc
  have hvs := eq_ok_of_toOption hvs
  refine ⟨program, tag, vs, eq_ok_of_toOption hp, htag, hvs, eq_of_onlyNothing? hentries, ?_⟩
  rw [startTag_eq_map, hvs]
  exact congrArg Except.ok htext

end TagPlan

end MarkupTemplate

/-! ## Tables of macros that differ in their bodies -/

namespace MarkupTemplate

/-- The macros have one name and the same parameters, and their bodies are related. -/
structure Macro.Matches (R : Block → Block → Prop) (m m' : Macro) : Prop where
  name : m'.name = m.name
  parameters : m'.parameters = m.parameters
  body : R m.body m'.body

namespace RenderContext

/-- Both calls fail with one fault, or both are prepared with the same bindings for macros that match. -/
inductive Prepared (R : Block → Block → Prop) :
    Except RenderFault (Macro × List (String × Value)) → Except RenderFault (Macro × List (String × Value)) → Prop
  | ok {m m' : Macro} (bindings : List (String × Value)) (h : m.Matches R m') :
      Prepared R (.ok (m, bindings)) (.ok (m', bindings))
  | error (fault : RenderFault) : Prepared R (.error fault) (.error fault)

variable {context : RenderContext} {macros : List Macro} {R : Block → Block → Prop}

theorem startTag_macros (context : RenderContext) (macros : List Macro) :
    startTag { context with macros } = context.startTag := by
  funext σ tag
  rw [TagPlan.startTag_eq_map, TagPlan.startTag_eq_map]
  rfl

theorem prepareCall_matching (h : List.Forall₂ (Macro.Matches R) context.macros macros) (σ : Scope)
    (callee : MacroTarget) (arguments : List (String × Argument)) (location : Location) :
    Prepared R (context.prepareCall σ callee arguments location)
      (prepareCall { context with macros } σ callee arguments location) := by
  have htarget : target { context with macros } σ callee = context.target σ callee := rfl
  unfold prepareCall
  rw [htarget]
  cases context.target σ callee with
  | error fault => exact .error fault
  | ok id =>
    have hm := rel_getElem? h id
    simp only [Bind.bind, Except.bind]
    generalize context.macros[id]? = m at hm ⊢
    generalize macros[id]? = m' at hm ⊢
    cases hm with
    | none => exact .error _
    | @some m m' hm =>
      have hbind : bindParameter { context with macros } = context.bindParameter := rfl
      dsimp only
      unfold unknownArgument?
      rw [hm.parameters, hm.name, hbind]
      split
      · exact .error _
      · cases m.parameters.mapM (context.bindParameter σ arguments location) with
        | error fault => exact .error fault
        | ok bindings => exact .ok bindings hm

end RenderContext

end MarkupTemplate
