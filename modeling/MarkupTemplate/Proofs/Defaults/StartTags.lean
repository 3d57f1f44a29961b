import MarkupTemplate.Proofs.Render.Rewriting

/-!
# Attributes that are computed as `default`

If all that is computed for an attribute is `default`, the start tag is the one for which nothing is computed there:
an attribute of the source stays as it stands, and none is added (`RenderContext.startTag_filter`).
-/

namespace MarkupTemplate

namespace ComputedValues

variable {values : ComputedValues} {name other : String} {v : Value}

/-- What is computed for the name is `default`. -/
def Keeps (name : String) (values : ComputedValues) : Prop :=
  ∀ entry ∈ values, entry.1 = name → entry.2 = .default

theorem without_cons (entry : String × Value) (values : ComputedValues) (name : String) :
    without (entry :: values) [name] =
      if entry.1 = name then values.without [name] else entry :: values.without [name] := by
  by_cases h : entry.1 = name <;> simp [without, h]

theorem without_put (values : ComputedValues) (name other : String) (v : Value) :
    (values.put other v).without [name] =
      if other = name then values.without [name] else (values.without [name]).put other v := by
  induction values with
  | nil =>
    rw [put, without_cons]
    rfl
  | cons entry values ih =>
    obtain ⟨first, w⟩ := entry
    rw [put, without_cons]
    by_cases hf : first = other
    · subst hf
      rw [if_pos rfl, without_cons]
      dsimp only
      split
      · rfl
      · rw [put, if_pos rfl]
    · rw [if_neg hf, without_cons, ih]
      dsimp only
      by_cases hn : other = name
      · subst hn
        simp only [if_true, if_neg hf]
      · simp only [if_neg hn]
        split
        · rfl
        · rw [put, if_neg hf]

theorem keeps_put (h : Keeps name values) (hv : other = name → v = .default) : Keeps name (put other v values) := by
  induction values with
  | nil =>
    intro entry he hname
    cases List.mem_singleton.1 he
    exact hv hname
  | cons entry values ih =>
    obtain ⟨first, w⟩ := entry
    obtain ⟨hfirst, hrest⟩ := List.forall_mem_cons.1 h
    rw [put]
    split
    · exact List.forall_mem_cons.2 ⟨hv, hrest⟩
    · exact List.forall_mem_cons.2 ⟨hfirst, ih hrest⟩

theorem take?_without (values : ComputedValues) (name other : String) :
    (values.without [name]).take? other =
      if other = name then none else (values.take? other).map fun found => (found.1, found.2.without [name]) := by
  induction values with
  | nil => split <;> rfl
  | cons entry values ih =>
    obtain ⟨first, w⟩ := entry
    rw [without_cons, take?]
    dsimp only
    by_cases hn : other = name
    · subst hn
      rw [if_pos rfl] at ih ⊢
      split
      · exact ih
      · next hf => rw [take?, if_neg hf, ih, Option.map_none]
    · rw [if_neg hn] at ih ⊢
      by_cases hf : first = other
      · subst hf
        rw [if_neg hn, take?, if_pos rfl, if_pos rfl, Option.map_some]
      · rw [if_neg hf, Option.map_map]
        split
        · next hfirst =>
          rw [ih]
          simp only [Function.comp_def, without_cons, hfirst, if_true]
        · next hfirst =>
          rw [take?, if_neg hf, ih, Option.map_map]
          simp only [Function.comp_def, without_cons, if_neg hfirst]

theorem without_of_take? {left : ComputedValues} (h : values.take? name = some (v, left)) :
    left.without [name] = values.without [name] := by
  induction values generalizing left with
  | nil => cases h
  | cons entry values ih =>
    obtain ⟨first, w⟩ := entry
    rw [take?] at h
    split at h
    · next hf =>
      cases h
      rw [without_cons, if_pos hf]
    · obtain ⟨⟨u, rest⟩, hrest, h⟩ := Option.map_eq_some_iff.1 h
      cases h
      rw [without_cons, without_cons, ih hrest]

theorem Keeps.of_take? {left : ComputedValues} (hk : Keeps name values) (h : values.take? other = some (v, left)) :
    (other = name → v = .default) ∧ Keeps name left := by
  induction values generalizing left with
  | nil => cases h
  | cons entry values ih =>
    obtain ⟨first, w⟩ := entry
    obtain ⟨hfirst, hrest⟩ := List.forall_mem_cons.1 hk
    rw [take?] at h
    split at h
    · next hf =>
      cases h
      exact ⟨fun hn => hfirst (hf.trans hn), hrest⟩
    · obtain ⟨⟨u, rest⟩, htake, h⟩ := Option.map_eq_some_iff.1 h
      cases h
      exact ⟨(ih hrest htake).1, List.forall_mem_cons.2 ⟨hfirst, (ih hrest htake).2⟩⟩

/-- Attributes for which `default` is computed are written as if nothing was. -/
theorem Keeps.writeAttributes (format : ValueFormatter) (hk : Keeps name values)
    (attributes : List StaticAttribute) :
    writeAttributes format (values.without [name]) attributes =
      ((writeAttributes format values attributes).1, (writeAttributes format values attributes).2.without [name]) ∧
    Keeps name (writeAttributes format values attributes).2 := by
  induction attributes generalizing values with
  | nil => exact ⟨rfl, hk⟩
  | cons a attributes ih =>
    rw [MarkupTemplate.writeAttributes, MarkupTemplate.writeAttributes, take?_without]
    cases htake : values.take? a.name with
    | none =>
      obtain ⟨hwithout, hleft⟩ := ih hk
      simp only [Option.map_none, ite_self]
      exact ⟨by rw [hwithout], hleft⟩
    | some found =>
      obtain ⟨v, left⟩ := found
      obtain ⟨hv, hkeeps⟩ := hk.of_take? htake
      obtain ⟨hwithout, hleft⟩ := ih hkeeps
      refine ⟨?_, hleft⟩
      by_cases ha : a.name = name
      · subst ha
        rw [if_pos rfl, ← without_of_take? htake, hv rfl]
        dsimp only
        rw [hwithout]
        rfl
      · rw [if_neg ha]
        dsimp only [Option.map_some]
        rw [hwithout]

theorem Keeps.join_newAttribute (format : ValueFormatter) (hk : Keeps name values) :
    String.join ((values.without [name]).map (newAttribute format)) =
      String.join (values.map (newAttribute format)) := by
  induction values with
  | nil => rfl
  | cons entry values ih =>
    obtain ⟨hfirst, hrest⟩ := List.forall_mem_cons.1 hk
    rw [without_cons]
    split
    · next h =>
      have hempty : newAttribute format entry = "" := by
        rw [newAttribute, hfirst h]
        rfl
      rw [List.map_cons, String.join_cons, hempty, String.empty_append, ih hrest]
    · rw [List.map_cons, List.map_cons, String.join_cons, String.join_cons, ih hrest]

end ComputedValues

open ComputedValues

theorem TagPlan.startTag_without (format : ValueFormatter) (tag : TagPlan) {name : String} {values : ComputedValues}
    (hk : Keeps name values) : tag.startTag format (values.without [name]) = tag.startTag format values := by
  obtain ⟨hwithout, hleft⟩ := hk.writeAttributes format tag.attributes
  unfold TagPlan.startTag
  rw [hwithout]
  dsimp only
  rw [hleft.join_newAttribute]

namespace RenderContext

variable (context : RenderContext) {name : String}

/-- Nothing but `default` is computed for the attribute. -/
def Defaults (name : String) (computed : List ComputedAttribute) : Prop :=
  ∀ a ∈ computed, a.name = name → a.value.expression = .default

theorem computedValues_filter (σ : Scope) {computed : List ComputedAttribute} (hd : Defaults name computed)
    {values : ComputedValues} (hk : Keeps name values) :
    context.computedValues σ (values.without [name]) (computed.filter (·.name != name)) =
        (without · [name]) <$> context.computedValues σ values computed ∧
      ∀ after, context.computedValues σ values computed = .ok after → Keeps name after := by
  induction computed generalizing values with
  | nil => exact ⟨rfl, fun values h => by cases h; exact hk⟩
  | cons a computed ih =>
    obtain ⟨ha, hrest⟩ := List.forall_mem_cons.1 hd
    rw [List.filter_cons, computedValues]
    by_cases hn : a.name = name
    · have hv : context.value σ a.value = .ok .default := by
        rw [value, ha hn]
        rfl
      have hput := without_put values name a.name .default
      rw [if_pos hn] at hput
      rw [hv, if_neg (by simpa using hn), ← hput]
      exact ih hrest (keeps_put hk fun _ => rfl)
    · rw [if_pos (by simpa using hn), computedValues]
      cases context.value σ a.value with
      | error fault => exact ⟨rfl, fun _ h => by cases h⟩
      | ok v =>
        have hput := without_put values name a.name v
        rw [if_neg hn] at hput
        simp only [Bind.bind, Except.bind]
        rw [← hput]
        exact ih hrest (keeps_put hk fun h => absurd h hn)

/-- Without what is computed for an attribute, if it is `default`, the start tag is the same. -/
theorem startTag_filter (σ : Scope) {tag : TagPlan} (hd : Defaults name tag.computed) :
    context.startTag σ { tag with computed := tag.computed.filter (·.name != name) } = context.startTag σ tag := by
  obtain ⟨hvalues, hkeeps⟩ := context.computedValues_filter σ hd (List.forall_mem_nil _)
  have hvalues : context.computedValues σ [] (tag.computed.filter (·.name != name)) =
    (without · [name]) <$> context.computedValues σ [] tag.computed := hvalues
  unfold startTag
  rw [hvalues]
  cases hv : context.computedValues σ [] tag.computed with
  | error fault => rfl
  | ok values => exact congrArg Except.ok (tag.startTag_without context.format (hkeeps values hv))

end RenderContext

end MarkupTemplate
