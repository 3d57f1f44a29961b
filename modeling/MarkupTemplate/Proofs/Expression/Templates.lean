import Mathlib.Data.List.Chain
import Mathlib.Data.List.Infix
import MarkupTemplate.Evaluation.Evaluate
import MarkupTemplate.Expression.Parser
import MarkupTemplate.Proofs.Results

/-!
# Texts with expressions inside

A text is written part by part: a literal with every dollar doubled, an expression between braces behind a dollar.
Read back, it has exactly these parts, with literals that stand next to each other joined and empty ones left out
(`parseParts_written`), so its value is that of the parts one after the other (`Expression.template_exact`).
-/

namespace MarkupTemplate

namespace Expression

/-! ### Balanced braces -/

/-- Every brace that closes has one before it that it closes, and all that are opened are closed. -/
structure IsBalanced (cs : List Char) : Prop where
  opened : ∀ front, front <+: cs → front.count '\x7d' ≤ front.count '\x7b'
  closed : cs.count '\x7b' = cs.count '\x7d'

variable {source text cs inner rest inside : List Char}

theorem splitBrace?_open (depth : Nat) (cs : List Char) :
    splitBrace? depth ('\x7b' :: cs) = (splitBrace? (depth + 1) cs).map fun parts => ('\x7b' :: parts.1, parts.2) :=
  rfl

theorem splitBrace?_close (depth : Nat) (cs : List Char) :
    splitBrace? (depth + 1) ('\x7d' :: cs) = (splitBrace? depth cs).map fun parts => ('\x7d' :: parts.1, parts.2) :=
  rfl

theorem splitBrace?_char {c : Char} (hopen : c ≠ '\x7b') (hclose : c ≠ '\x7d') (depth : Nat) (cs : List Char) :
    splitBrace? depth (c :: cs) = (splitBrace? depth cs).map fun parts => (c :: parts.1, parts.2) := by
  exact (if_neg hopen).trans (if_neg hclose)

/-- A text that closes all that it opens and `depth` braces more is taken up to the next brace that closes. -/
theorem splitBrace?_append {depth : Nat}
    (hopened : ∀ front, front <+: cs → front.count '\x7d' ≤ depth + front.count '\x7b')
    (hclosed : cs.count '\x7d' = depth + cs.count '\x7b') (rest : List Char) :
    splitBrace? depth (cs ++ '\x7d' :: rest) = some (cs, rest) := by
  induction cs generalizing depth with
  | nil =>
    obtain rfl : depth = 0 := by simpa using hclosed.symm
    rfl
  | cons c cs ih =>
    have hfront : ∀ front, front <+: cs → (c :: front).count '\x7d' ≤ depth + (c :: front).count '\x7b' :=
      fun front h => hopened (c :: front) (List.cons_prefix_cons.2 ⟨rfl, h⟩)
    simp only [List.count_cons, beq_iff_eq] at hfront hclosed
    rw [List.cons_append]
    by_cases hopen : c = '\x7b'
    · subst hopen
      simp only [Char.reduceEq, if_true, if_false] at hfront hclosed
      rw [splitBrace?_open, ih (fun front h => by have := hfront front h; omega) (by omega)]
      rfl
    · by_cases hclose : c = '\x7d'
      · subst hclose
        simp only [Char.reduceEq, if_true, if_false] at hfront hclosed
        cases depth with
        | zero =>
          have := hfront [] List.nil_prefix
          simp at this
        | succ depth =>
          rw [splitBrace?_close, ih (fun front h => by have := hfront front h; omega) (by omega)]
          rfl
      · simp only [hopen, hclose, if_false] at hfront hclosed
        rw [splitBrace?_char hopen hclose, ih hfront hclosed]
        rfl

theorem IsBalanced.splitBrace? (h : IsBalanced cs) (rest : List Char) :
    splitBrace? 0 (cs ++ '\x7d' :: rest) = some (cs, rest) :=
  splitBrace?_append (fun front hfront => by simpa using h.opened front hfront) (by simp [h.closed]) rest

/-! ### Steps of reading the parts -/

theorem parseParts_char {c : Char} (hc : c ≠ '$') (rest : List Char) :
    parseParts source text (c :: rest) = parseParts source (c :: text) rest := by
  rw [parseParts.eq_def]
  exact if_neg hc

theorem parseParts_dollars (rest : List Char) :
    parseParts source text ('$' :: '$' :: rest) = parseParts source ('$' :: text) rest := by
  rw [parseParts]
  rfl

theorem parseParts_braces (h : splitBrace? 0 inside = some (inner, rest)) :
    parseParts source text ('$' :: '\x7b' :: inside) = do
      let e ← parseChars inner
      return flushText text (.interpolation e :: (← parseParts source [] rest)) := by
  rw [parseParts]
  simp only [if_true]
  split
  · next heq => rw [h] at heq; cases heq
  · next heq =>
    rw [h] at heq
    cases heq
    rfl

theorem parseParts_unterminated (h : splitBrace? 0 inside = none) :
    parseParts source text ('$' :: '\x7b' :: inside) = .error ⟨String.ofList source, .unterminated⟩ := by
  rw [parseParts]
  simp only [if_true]
  split
  · rfl
  · next heq => rw [h] at heq; cases heq

/-- What a dollar is that stands neither before a dollar nor before a brace. -/
theorem parseParts_dollar (hrest : ∀ c ∈ rest.head?, c ≠ '$' ∧ c ≠ '\x7b') :
    parseParts source text ('$' :: rest) =
      match Path.inText? rest with
      | some (p, after) => do return flushText text (.interpolation (path p) :: (← parseParts source [] after))
      | none => parseParts source ('$' :: text) rest := by
  rw [parseParts]
  · simp only [if_true]
    split <;> next heq => rw [heq]
  · rintro rest rfl
    exact (hrest _ rfl).1 rfl
  · rintro inside rfl
    exact (hrest _ rfl).2 rfl

end Expression

/-! ### Parts -/

namespace StringPart

/-- A literal in front of parts: it joins the one that they begin with, and leaves no trace if it is empty. -/
def prepend (s : String) : List StringPart → List StringPart
  | .text t :: parts => .text (s ++ t) :: parts
  | parts => if s = "" then parts else .text s :: parts

/-- The parts with literals that stand next to each other joined and empty ones left out. -/
def merged : List StringPart → List StringPart
  | [] => []
  | .text s :: parts => prepend s (merged parts)
  | .interpolation e :: parts => .interpolation e :: merged parts

/-- A literal. -/
def isText : StringPart → Bool
  | .text _ => true
  | .interpolation _ => false

/-- No literal is empty and none stands next to another. -/
structure AreMerged (parts : List StringPart) : Prop where
  nonempty : .text "" ∉ parts
  apart : parts.IsChain fun p q => ¬ (p.isText ∧ q.isText)

variable {parts : List StringPart}

theorem prepend_of_not_text (s : String) (h : ∀ p ∈ parts.head?, ¬ p.isText) :
    prepend s parts = if s = "" then parts else .text s :: parts := by
  unfold prepend
  split
  · exact absurd rfl (h _ rfl)
  · rfl

theorem prepend_empty (parts : List StringPart) : prepend "" parts = parts := by
  unfold prepend
  split
  · rw [String.empty_append]
  · rfl

theorem prepend_prepend (s t : String) (parts : List StringPart) :
    prepend s (prepend t parts) = prepend (s ++ t) parts := by
  by_cases ht : t = ""
  · rw [ht, prepend_empty, String.append_empty]
  · cases parts with
    | nil => simp [prepend, ht]
    | cons p parts =>
      cases p with
      | text u => simp [prepend, String.append_assoc]
      | interpolation e => simp [prepend, ht]

theorem AreMerged.prepend (s : String) (h : AreMerged parts) : AreMerged (prepend s parts) := by
  by_cases hfirst : ∃ t rest, parts = .text t :: rest
  · obtain ⟨t, rest, rfl⟩ := hfirst
    have ht : t ≠ "" := fun ht => h.nonempty (by rw [ht]; exact List.mem_cons_self)
    have hrest : .text "" ∉ rest := fun hmem => h.nonempty (List.mem_cons_of_mem _ hmem)
    have hne : s ++ t ≠ "" := fun hst => ht (String.append_eq_empty_iff.1 hst).2
    exact ⟨List.not_mem_cons_of_ne_of_not_mem (fun heq => hne (StringPart.text.inj heq).symm) hrest,
      List.isChain_cons.2 (List.isChain_cons.1 h.apart)⟩
  · have hnot : ∀ p ∈ parts.head?, ¬ p.isText := by
      rintro (t | e) hp
      · exact absurd ⟨t, parts.tail, List.eq_cons_of_mem_head? hp⟩ hfirst
      · exact Bool.false_ne_true
    rw [prepend_of_not_text s hnot]
    split
    · exact h
    · next hs =>
      exact ⟨List.not_mem_cons_of_ne_of_not_mem (fun heq => hs (StringPart.text.inj heq).symm) h.nonempty,
        List.isChain_cons.2 ⟨fun p hp hboth => hnot p hp hboth.2, h.apart⟩⟩

theorem areMerged_merged (parts : List StringPart) : AreMerged (merged parts) := by
  induction parts with
  | nil => exact ⟨List.not_mem_nil, .nil⟩
  | cons p parts ih =>
    cases p with
    | text s => exact ih.prepend s
    | interpolation e =>
      exact ⟨List.not_mem_cons_of_ne_of_not_mem nofun ih.nonempty, List.isChain_cons.2 ⟨by simp [isText], ih.apart⟩⟩

/-! ### What parts give -/

section Values

variable (run : HostEvaluator) (scope : Scope)

/-- What a part gives in a scope. -/
def textIn : StringPart → Except EvalFault String
  | .text s => .ok s
  | .interpolation e => Value.text <$> e.evaluate run scope

theorem evaluateParts_prepend (s : String) (parts : List StringPart) :
    Expression.evaluateParts run scope (prepend s parts) = (s ++ ·) <$> Expression.evaluateParts run scope parts := by
  unfold prepend
  split
  · simp only [Expression.evaluateParts, ← comp_map, Function.comp_def, String.append_assoc]
  · split
    · next hs =>
      subst hs
      simp only [String.empty_append]
      exact (id_map _).symm
    · rw [Expression.evaluateParts]

theorem evaluateParts_merged (parts : List StringPart) :
    Expression.evaluateParts run scope (merged parts) = Expression.evaluateParts run scope parts := by
  induction parts with
  | nil => rfl
  | cons p parts ih =>
    cases p with
    | text s => rw [merged, evaluateParts_prepend, ih, Expression.evaluateParts]
    | interpolation e => rw [merged, Expression.evaluateParts, ih, Expression.evaluateParts]

/-- The parts give their texts one after the other, or the fault of the first that gives none. -/
theorem evaluateParts_eq (parts : List StringPart) :
    Expression.evaluateParts run scope parts = String.join <$> parts.mapM (textIn run scope) := by
  induction parts with
  | nil => rfl
  | cons p parts ih =>
    rw [List.mapM_cons]
    cases p with
    | text s =>
      rw [Expression.evaluateParts, ih, textIn]
      cases parts.mapM (textIn run scope) with
      | error fault => rfl
      | ok texts => exact congrArg Except.ok String.join_cons.symm
    | interpolation e =>
      rw [Expression.evaluateParts, ih, textIn]
      cases e.evaluate run scope with
      | error fault => rfl
      | ok v =>
        cases parts.mapM (textIn run scope) with
        | error fault => rfl
        | ok texts => exact congrArg Except.ok String.join_cons.symm

end Values

end StringPart

/-! ### What is written -/

/-- A part of a text as it is written: a literal, or the source of an expression. -/
inductive WrittenPart where
  | text (s : String)
  | braced (source : String)

namespace WrittenPart

/-- The dollars of a literal are doubled, and a source stands between braces behind a dollar. -/
def chars : WrittenPart → List Char
  | text s => s.toList.flatMap fun c => if c = '$' then ['$', '$'] else [c]
  | braced source => '$' :: '\x7b' :: (source.toList ++ ['\x7d'])

/-- The part that is meant; the source of an expression has balanced braces. -/
inductive Means : WrittenPart → StringPart → Prop
  | text (s : String) : Means (.text s) (.text s)
  | braced {source : String} {e : Expression} (hbraces : Expression.IsBalanced source.toList)
      (hread : Expression.parse source = .ok e) : Means (.braced source) (.interpolation e)

end WrittenPart

namespace Expression

open StringPart WrittenPart

variable {written : List WrittenPart} {parts : List StringPart} {source text : List Char}

theorem parseParts_literal (s rest : List Char) :
    parseParts source text (s.flatMap (fun c => if c = '$' then ['$', '$'] else [c]) ++ rest) =
      parseParts source (s.reverse ++ text) rest := by
  induction s generalizing text with
  | nil => rfl
  | cons c s ih =>
    rw [List.flatMap_cons, List.append_assoc, List.reverse_cons, List.append_assoc, List.singleton_append]
    split
    · next hc =>
      rw [hc]
      exact (parseParts_dollars _).trans ih
    · next hc => exact (parseParts_char hc _).trans ih

theorem flushText_eq_prepend (h : ∀ p ∈ parts.head?, ¬ p.isText) :
    flushText text parts = prepend (String.ofList text.reverse) parts := by
  rw [prepend_of_not_text _ h, flushText]
  cases text <;> simp

/-- What is read behind the characters `text` that belong to no part yet. -/
theorem parseParts_written (h : List.Forall₂ Means written parts) :
    parseParts source text (written.flatMap chars) =
      .ok (prepend (String.ofList text.reverse) (merged parts)) := by
  induction h generalizing text with
  | nil =>
    rw [List.flatMap_nil, parseParts, merged, flushText_eq_prepend (by simp)]
    rfl
  | cons hpart _ ih =>
    rw [List.flatMap_cons]
    cases hpart with
    | text s =>
      rw [chars, parseParts_literal, ih, merged, prepend_prepend, List.reverse_append, List.reverse_reverse,
        String.ofList_append, String.ofList_toList]
    | braced hbraces hread =>
      rw [parse] at hread
      have hrest := @ih []
      rw [List.reverse_nil, String.ofList_nil, prepend_empty] at hrest
      rw [chars, List.cons_append, List.cons_append, List.append_assoc, List.singleton_append,
        parseParts_braces (hbraces.splitBrace? _), hread, hrest, merged, ← flushText_eq_prepend (by simp [isText])]
      rfl

/-- Parts that are written are read back, joined where literals meet, and give what they give one after the other. A
literal alone gives itself. -/
theorem template_exact (h : List.Forall₂ Means written parts) :
    parseTemplate (String.ofList (written.flatMap chars)) = .ok (merged parts) ∧ AreMerged (merged parts) ∧
    (∀ run scope, evaluate run scope (.string (merged parts)) =
      (fun texts => .str (String.join texts)) <$> parts.mapM (textIn run scope)) ∧
    ∀ s, ∃ literal, parseTemplate (String.ofList (WrittenPart.text s).chars) = .ok literal ∧
      ∀ run scope, evaluate run scope (.string literal) = .ok (.str s) := by
  have hread {written : List WrittenPart} {parts : List StringPart} (h : List.Forall₂ Means written parts) :
      parseTemplate (String.ofList (written.flatMap chars)) = .ok (merged parts) := by
    rw [parseTemplate, String.toList_ofList, parseParts_written h]
    exact congrArg Except.ok (prepend_empty _)
  have hvalue (parts : List StringPart) (run : HostEvaluator) (scope : Scope) :
      evaluate run scope (.string (merged parts)) =
        (fun texts => .str (String.join texts)) <$> parts.mapM (textIn run scope) := by
    rw [evaluate, evaluateParts_merged, evaluateParts_eq, ← comp_map]
    rfl
  refine ⟨hread h, areMerged_merged parts, hvalue parts, fun s => ⟨merged [.text s], ?_, fun run scope => ?_⟩⟩
  · have hone := hread (List.Forall₂.cons (Means.text s) .nil)
    rwa [List.flatMap_singleton] at hone
  · rw [hvalue, List.mapM_cons]
    exact congrArg (fun s => Except.ok (Value.str s)) (String.join_cons.trans String.append_empty)

theorem template_exact_nested :
    List.Forall₂ Means [.text "", .text "5$", .text "\x7b", .braced "string:[$\x7bnothing\x7d]", .text "$"]
      [.text "", .text "5$", .text "\x7b",
        .interpolation (.string [.text "[", .interpolation .nothing, .text "]"]), .text "$"] ∧
    parseTemplate "5$$\x7b$\x7bstring:[$\x7bnothing\x7d]\x7d$$" =
      .ok [.text "5$\x7b", .interpolation (.string [.text "[", .interpolation .nothing, .text "]"]), .text "$"] := by
  have hbraces : IsBalanced "string:[$\x7bnothing\x7d]".toList := by
    have hfronts : ∀ front ∈ "string:[$\x7bnothing\x7d]".toList.inits,
        front.count '\x7d' ≤ front.count '\x7b' := by decide
    exact ⟨fun front h => hfronts front ((List.mem_inits _ _).2 h), by decide⟩
  have h := List.Forall₂.cons (Means.text "") <| .cons (Means.text "5$") <| .cons (Means.text "\x7b") <|
    .cons (Means.braced hbraces (by cbv)) <| .cons (Means.text "$") .nil
  exact ⟨h, (template_exact h).1⟩

end Expression

end MarkupTemplate
