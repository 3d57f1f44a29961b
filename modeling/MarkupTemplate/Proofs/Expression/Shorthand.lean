import MarkupTemplate.Proofs.Expression.Paths
import MarkupTemplate.Proofs.Expression.Templates

/-!
# The shorthand for paths in texts

Behind a dollar stands a path, or an expression between braces. A path between braces is read as the same part
(`Expression.shorthand_eq_braces`): it has no blanks, bars, colons or braces, and its slashes separate in both forms.
Only a sentinel's word is a variable in the short form and the sentinel between braces
(`Expression.shorthand_ne_braces`).
-/

namespace MarkupTemplate

namespace Path

variable {separates : Char → Bool} {cs after t : List Char} {p : Path}

/-! ### Paths with text behind them -/

theorem root?_append (hne : cs ≠ []) (hafter : Stops isRootChar after) :
    root? (cs ++ after) = (root? cs).map fun read => (read.1, read.2 ++ after) := by
  cases cs with
  | nil => exact absurd rfl hne
  | cons c cs =>
    rw [List.cons_append, root?, root?, takeWhile_append_of_stops hafter, dropWhile_append_of_stops hafter]
    split <;> rfl

theorem readSegments_segment {c : Char} (hc : separates c && !(cs.takeWhile isSegmentChar).isEmpty) :
    readSegments separates (c :: cs) =
      (String.ofList (cs.takeWhile isSegmentChar) :: (readSegments separates (cs.dropWhile isSegmentChar)).1,
        (readSegments separates (cs.dropWhile isSegmentChar)).2) := by
  rw [readSegments]
  exact if_pos hc

theorem readSegments_stop {c : Char} (hc : ¬ (separates c && !(cs.takeWhile isSegmentChar).isEmpty)) :
    readSegments separates (c :: cs) = ([], c :: cs) := by
  rw [readSegments]
  exact if_neg hc

theorem readSegments_append (hafter : Stops isSegmentChar after)
    (hnone : readSegments separates after = ([], after)) (cs : List Char) :
    readSegments separates (cs ++ after) =
      ((readSegments separates cs).1, (readSegments separates cs).2 ++ after) := by
  fun_induction readSegments separates cs with
  | case1 => exact hnone
  | case2 c cs hc _ more ih =>
    rw [List.cons_append, readSegments_segment (by rwa [takeWhile_append_of_stops hafter]),
      takeWhile_append_of_stops hafter, dropWhile_append_of_stops hafter, ih]
  | case3 c cs hc =>
    rw [List.cons_append, readSegments_stop (by rwa [takeWhile_append_of_stops hafter])]

theorem eq_nil_of_readSegments (h : readSegments separates cs = ([], [])) : cs = [] := by
  unfold readSegments at h
  split at h
  · rfl
  · split at h <;> cases h

/-- What stands behind a path in a text does not go on with it, neither with a character nor with a segment. -/
structure EndsPath (p : Path) (after : List Char) : Prop where
  char : Stops (if p.segments.isEmpty then isRootChar else isSegmentChar) after
  segment : ∀ rest, after = '/' :: rest → Stops isSegmentChar rest

theorem EndsPath.readSegments (h : EndsPath p after) : readSegments (· == '/') after = ([], after) := by
  cases after with
  | nil => rw [Path.readSegments]
  | cons c rest =>
    refine readSegments_stop fun hc => ?_
    obtain ⟨hslash, hsegment⟩ := Bool.and_eq_true_iff.1 hc
    have hstop := h.segment rest (by rw [beq_iff_eq.1 hslash])
    rw [← List.nil_append rest, takeWhile_of_stops rfl hstop] at hsegment
    cases hsegment

theorem stops_isRootChar (h : Stops isSegmentChar after) : Stops isRootChar after :=
  fun c hc => (Bool.or_eq_false_iff.1 (h c hc)).1

/-- A path that is read in full is read with text behind it that does not go on with it. -/
theorem inText?_append (ht : inText? t = some (p, [])) (hafter : EndsPath p after) :
    inText? (t ++ after) = some (p, after) := by
  have hne : t ≠ [] := by
    rintro rfl
    cases ht
  obtain ⟨⟨root, rest⟩, hroot, hread⟩ := Option.map_eq_some_iff.1 ht
  obtain ⟨rfl, hrest⟩ := Prod.mk.inj hread
  have hchar := hafter.char
  have hrootStops : Stops isRootChar after := by
    split at hchar
    · exact hchar
    · exact stops_isRootChar hchar
  have hsegments : readSegments (· == '/') (rest ++ after) = ((readSegments (· == '/') rest).1, after) := by
    split at hchar
    · next hnone =>
      obtain rfl := eq_nil_of_readSegments (Prod.ext (List.isEmpty_iff.1 hnone) hrest)
      rw [List.nil_append, hafter.readSegments, readSegments]
    · rw [readSegments_append hchar hafter.readSegments, hrest, List.nil_append]
  rw [inText?, front?, root?_append hne hrootStops, hroot, Option.map_some, Option.map_some]
  dsimp only
  rw [hsegments]

/-- Slashes separate in written paths too. -/
theorem readSegments_isSeparator (h : (readSegments (· == '/') cs).2 = []) :
    readSegments isSeparator cs = readSegments (· == '/') cs := by
  fun_induction readSegments (· == '/') cs with
  | case1 => rw [readSegments]
  | case2 c cs hc _ more ih =>
    have hc' : isSeparator c && !(cs.takeWhile isSegmentChar).isEmpty := by
      rw [Bool.and_eq_true] at hc ⊢
      exact ⟨by simp [isSeparator, beq_iff_eq.1 hc.1], hc.2⟩
    rw [readSegments_segment hc', ih h]
  | case3 => cases h

/-- A path that is read in full in a text is a path. -/
theorem parse?_of_inText? (h : inText? cs = some (p, [])) : parse? cs = some p := by
  obtain ⟨⟨root, rest⟩, hroot, hread⟩ := Option.map_eq_some_iff.1 h
  obtain ⟨rfl, hrest⟩ := Prod.mk.inj hread
  rw [parse?, front?, hroot, Option.map_some]
  dsimp only
  rw [readSegments_isSeparator hrest, hrest]

/-- No path starts with a dollar, and none goes on with one. -/
theorem inText?_append_dollar (hne : cs ≠ []) (rest : List Char) :
    inText? (cs ++ '$' :: rest) = (inText? cs).map fun read => (read.1, read.2 ++ '$' :: rest) := by
  have hsegment : Stops isSegmentChar ('$' :: rest) := .cons (by decide +kernel)
  have hnone : readSegments (· == '/') ('$' :: rest) = ([], '$' :: rest) :=
    readSegments_stop (by simp)
  rw [inText?, front?, root?_append hne (stops_isRootChar hsegment), inText?, front?, Option.map_map, Option.map_map]
  refine congrArg (Option.map · (root? cs)) (funext fun read => ?_)
  simp only [Function.comp_def, readSegments_append hsegment hnone]

/-- A path begins neither with a dollar nor with a brace. -/
theorem head_of_inText? {rest : List Char} (h : inText? cs = some (p, rest)) :
    ∀ c ∈ cs.head?, c ≠ '$' ∧ c ≠ '\x7b' := by
  cases cs with
  | nil => cases h
  | cons c cs =>
    rintro d ⟨⟩
    obtain ⟨read, hroot, -⟩ := Option.map_eq_some_iff.1 h
    rw [root?] at hroot
    constructor <;> rintro rfl <;> rw [if_neg (by decide +kernel)] at hroot <;> cases hroot

/-- What is left behind a path begins where its last character of a path stood. -/
theorem exists_of_readSegments (cs : List Char) :
    ∃ taken, cs = taken ++ (readSegments (· == '/') cs).2 ∧ ∀ c ∈ taken, isPathChar c := by
  fun_induction readSegments (· == '/') cs with
  | case1 => exact ⟨[], rfl, by simp⟩
  | case2 c cs hc _ more ih =>
    obtain ⟨taken, hdrop, htaken⟩ := ih
    refine ⟨c :: (cs.takeWhile isSegmentChar ++ taken), ?_, ?_⟩
    · rw [List.cons_append, List.append_assoc, ← hdrop, List.takeWhile_append_dropWhile]
    · rw [List.forall_mem_cons, List.forall_mem_append]
      refine ⟨by simp [isPathChar, isSeparator, beq_iff_eq.1 (Bool.and_eq_true_iff.1 hc).1], fun d hd => ?_, htaken⟩
      simp [isPathChar, List.mem_takeWhile_imp hd]
  | case3 => exact ⟨[], rfl, by simp⟩

theorem exists_of_inText? {rest : List Char} (h : inText? cs = some (p, rest)) :
    ∃ taken, cs = taken ++ rest ∧ ∀ c ∈ taken, isPathChar c := by
  obtain ⟨⟨root, more⟩, hroot, hread⟩ := Option.map_eq_some_iff.1 h
  obtain ⟨-, rfl⟩ := Prod.mk.inj hread
  obtain ⟨taken, hmore, htaken⟩ := exists_of_readSegments more
  have hpath : ∀ c, isRootChar c → isPathChar c := fun c hc => by
    simp [isPathChar, isSegmentChar_of_isRootChar hc]
  cases cs with
  | nil => cases hroot
  | cons c cs =>
    rw [root?] at hroot
    split at hroot
    · next hc =>
      obtain ⟨rfl, rfl⟩ := Prod.mk.inj (Option.some.inj hroot)
      refine ⟨c :: (cs.takeWhile isRootChar ++ taken), ?_, ?_⟩
      · rw [List.cons_append, List.append_assoc, ← hmore, List.takeWhile_append_dropWhile]
      · rw [List.forall_mem_cons, List.forall_mem_append]
        exact ⟨hpath c (isRootChar_of_isRootStart hc), fun d hd => hpath d (List.mem_takeWhile_imp hd), htaken⟩
    · cases hroot

theorem notMem_of_parse? {c : Char} (h : parse? cs = some p) (hc : isPathChar c = false) : c ∉ cs := by
  intro hmem
  rw [(chars_of_parse? h).2 c hmem] at hc
  cases hc

end Path

namespace Expression

variable {source source' text t before after : List Char} {p : Path}

/-! ### The two forms -/

theorem isBalanced_of_path (h : Path.parse? t = some p) : IsBalanced t := by
  have hopen := Path.notMem_of_parse? h (c := '\x7b') (by decide +kernel)
  have hclose := Path.notMem_of_parse? h (c := '\x7d') (by decide +kernel)
  refine ⟨fun front hfront => ?_, by rw [List.count_eq_zero.2 hopen, List.count_eq_zero.2 hclose]⟩
  rw [List.count_eq_zero.2 fun hmem => hclose (hfront.subset hmem)]
  exact Nat.zero_le _

/-- The words that are expressions and no paths. -/
def sentinelWords : List String :=
  ["nothing", "null", "default"]

theorem sentinel?_eq_none {word : String} (h : word ∉ sentinelWords) : sentinel? word = none := by
  unfold sentinel?
  split
  · exact absurd (by decide) h
  · exact absurd (by decide) h
  · exact absurd (by decide) h
  · rfl

theorem parseParts_shorthand (ht : Path.inText? t = some (p, [])) (hafter : Path.EndsPath p after) :
    parseParts source text ('$' :: (t ++ after)) = do
      return flushText text (.interpolation (path p) :: (← parseParts source [] after)) := by
  have hread := Path.inText?_append ht hafter
  rw [parseParts_dollar (Path.head_of_inText? hread), hread]

theorem parseParts_braced_path (ht : Path.inText? t = some (p, [])) (hword : String.ofList t ∉ sentinelWords) :
    parseParts source text ('$' :: '\x7b' :: (t ++ '\x7d' :: after)) = do
      return flushText text (.interpolation (path p) :: (← parseParts source [] after)) := by
  have hpath := Path.parse?_of_inText? ht
  have hread : parseChars t = .ok (path p) := by
    have := parse_of_path hpath
    rwa [parse, String.toList_ofList, sentinel?_eq_none hword] at this
  rw [parseParts_braces ((isBalanced_of_path hpath).splitBrace? after), hread]
  rfl

/-! ### The same parts -/

/-- Two readings give the same, or fail with the same problem. -/
def Same {α : Type} (x y : Except ExpressionFault α) : Prop :=
  x.mapError (·.problem) = y.mapError (·.problem)

theorem Same.bind {α β : Type} {x y : Except ExpressionFault α} {f g : α → Except ExpressionFault β} (h : Same x y)
    (hf : ∀ a, Same (f a) (g a)) : Same (x >>= f) (y >>= g) := by
  cases x with
  | error fault =>
    cases y with
    | error fault' => exact congrArg Except.error (Except.error.inj h)
    | ok b => cases h
  | ok a =>
    cases y with
    | error fault => cases h
    | ok b =>
      obtain rfl := Except.ok.inj h
      exact hf a

/-- What follows a dollar: another, a brace, or something else. -/
theorem dollar_cases (rest : List Char) :
    (∃ more, rest = '$' :: more) ∨ (∃ inside, rest = '\x7b' :: inside) ∨ ∀ c ∈ rest.head?, c ≠ '$' ∧ c ≠ '\x7b' := by
  cases rest with
  | nil => exact .inr (.inr (by simp))
  | cons c rest =>
    by_cases hdollar : c = '$'
    · exact .inl ⟨rest, by rw [hdollar]⟩
    · by_cases hopen : c = '\x7b'
      · exact .inr (.inl ⟨rest, by rw [hopen]⟩)
      · exact .inr (.inr (by rintro d ⟨⟩; exact ⟨hdollar, hopen⟩))

/-- The whole text only shows in faults, so it makes no other difference. -/
theorem parseParts_same (source source' text cs : List Char) :
    Same (parseParts source text cs) (parseParts source' text cs) := by
  induction hn : cs.length using Nat.strongRecOn generalizing text cs with
  | ind n ih =>
    subst hn
    cases cs with
    | nil =>
      rw [parseParts, parseParts]
      exact rfl
    | cons c rest =>
      by_cases hc : c = '$'
      · subst hc
        obtain ⟨more, rfl⟩ | ⟨inside, rfl⟩ | hrest := dollar_cases rest
        · rw [parseParts_dollars, parseParts_dollars]
          exact ih _ (by simp only [List.length_cons]; omega) _ _ rfl
        · cases hsplit : splitBrace? 0 inside with
          | none =>
            rw [parseParts_unterminated hsplit, parseParts_unterminated hsplit]
            exact rfl
          | some parts =>
            obtain ⟨inner, rest⟩ := parts
            have := length_splitBrace? hsplit
            rw [parseParts_braces hsplit, parseParts_braces hsplit]
            refine .bind rfl fun e => .bind (ih _ ?_ _ _ rfl) fun _ => rfl
            simp only [List.length_cons]
            omega
        · rw [parseParts_dollar hrest, parseParts_dollar hrest]
          split
          · next hread =>
            have := Path.length_lt_of_front? hread
            refine .bind (ih _ ?_ _ _ rfl) fun _ => rfl
            simp only [List.length_cons]
            omega
          · exact ih _ (by simp) _ _ rfl
      · rw [parseParts_char hc, parseParts_char hc]
        exact ih _ (by simp) _ _ rfl

/-- The text ends outside of interpolations, and its end is no dollar that waits for what follows. -/
inductive EndsInText : List Char → Prop
  | nil : EndsInText []
  | char {c : Char} {cs : List Char} (hc : c ≠ '$') (h : EndsInText cs) : EndsInText (c :: cs)
  | dollars {cs : List Char} (h : EndsInText cs) : EndsInText ('$' :: '$' :: cs)
  | braces {inner cs : List Char} (hinner : IsBalanced inner) (h : EndsInText cs) :
    EndsInText ('$' :: '\x7b' :: (inner ++ '\x7d' :: cs))
  | dollar {c : Char} {cs : List Char} (hdollar : c ≠ '$') (hopen : c ≠ '\x7b') (h : EndsInText (c :: cs)) :
    EndsInText ('$' :: c :: cs)

theorem EndsInText.tail {c : Char} {cs : List Char} (h : EndsInText (c :: cs)) (hc : c ≠ '$') : EndsInText cs := by
  cases h with
  | char _ h => exact h
  | dollars | braces | dollar => exact absurd rfl hc

theorem EndsInText.of_append {taken cs : List Char} (h : EndsInText (taken ++ cs)) (htaken : '$' ∉ taken) :
    EndsInText cs := by
  induction taken with
  | nil => exact h
  | cons c taken ih =>
    obtain ⟨hc, htaken⟩ := not_or.1 (mt List.mem_cons.2 htaken)
    exact ih (h.tail (Ne.symm hc)) htaken

/-- Texts with the same beginning have the same parts if what stands behind it has, wherever that is read. -/
theorem parseParts_before (hbefore : EndsInText before) {rest rest' : List Char}
    (h : ∀ text, Same (parseParts source text ('$' :: rest)) (parseParts source' text ('$' :: rest')))
    (text : List Char) :
    Same (parseParts source text (before ++ '$' :: rest)) (parseParts source' text (before ++ '$' :: rest')) := by
  induction hn : before.length using Nat.strongRecOn generalizing text before with
  | ind n ih =>
    subst hn
    cases hbefore with
    | nil => exact h text
    | char hc hcs =>
      rw [List.cons_append, List.cons_append, parseParts_char hc, parseParts_char hc]
      exact ih _ (by simp) hcs _ rfl
    | dollars hcs =>
      simp only [List.cons_append]
      rw [parseParts_dollars, parseParts_dollars]
      exact ih _ (by simp only [List.length_cons]; omega) hcs _ rfl
    | braces hinner hcs =>
      simp only [List.cons_append, List.append_assoc]
      rw [parseParts_braces (hinner.splitBrace? _), parseParts_braces (hinner.splitBrace? _)]
      refine .bind rfl fun e => .bind (ih _ ?_ hcs _ rfl) fun _ => rfl
      simp only [List.length_cons, List.length_append]
      omega
    | @dollar c cs hdollar hopen hcs =>
      have hhead (rest : List Char) : ∀ d ∈ (c :: cs ++ rest).head?, d ≠ '$' ∧ d ≠ '\x7b' := by
        rintro d ⟨⟩
        exact ⟨hdollar, hopen⟩
      show Same (parseParts source text ('$' :: (c :: cs ++ '$' :: rest)))
        (parseParts source' text ('$' :: (c :: cs ++ '$' :: rest')))
      rw [parseParts_dollar (hhead _), parseParts_dollar (hhead _),
        Path.inText?_append_dollar (List.cons_ne_nil c cs), Path.inText?_append_dollar (List.cons_ne_nil c cs)]
      cases hread : Path.inText? (c :: cs) with
      | none => exact ih _ (by simp) hcs _ rfl
      | some read =>
        obtain ⟨p, after⟩ := read
        obtain ⟨taken, htext, htaken⟩ := Path.exists_of_inText? hread
        have hlt := Path.length_lt_of_front? hread
        have hafter : EndsInText after := by
          rw [htext] at hcs
          refine hcs.of_append fun hmem => ?_
          have := htaken '$' hmem
          revert this
          decide +kernel
        refine .bind (ih _ ?_ hafter _ rfl) fun _ => rfl
        simp only [List.length_cons] at hlt ⊢
        omega

/-- A path behind a dollar and the same path between braces are read as the same parts, and so give the same, where
the text before it ends outside of interpolations and the text behind it does not go on with the path. -/
theorem shorthand_eq_braces {t before after : String} (ht : Path.inText? t.toList = some (p, []))
    (hword : t ∉ sentinelWords) (hbefore : EndsInText before.toList) (hafter : Path.EndsPath p after.toList) :
    Same (parseTemplate (before ++ "$" ++ t ++ after)) (parseTemplate (before ++ "$\x7b" ++ t ++ "\x7d" ++ after)) ∧
    ∀ run scope,
      Same ((fun parts => evaluate run scope (.string parts)) <$> parseTemplate (before ++ "$" ++ t ++ after))
        ((fun parts => evaluate run scope (.string parts)) <$>
          parseTemplate (before ++ "$\x7b" ++ t ++ "\x7d" ++ after)) := by
  have hword' : String.ofList t.toList ∉ sentinelWords := by rwa [String.ofList_toList]
  have hshort : (before ++ "$" ++ t ++ after).toList = before.toList ++ '$' :: (t.toList ++ after.toList) := by simp
  have hbraces : (before ++ "$\x7b" ++ t ++ "\x7d" ++ after).toList =
      before.toList ++ '$' :: '\x7b' :: (t.toList ++ '\x7d' :: after.toList) := by simp
  have hparts : Same (parseTemplate (before ++ "$" ++ t ++ after))
      (parseTemplate (before ++ "$\x7b" ++ t ++ "\x7d" ++ after)) := by
    rw [parseTemplate, parseTemplate, hshort, hbraces]
    refine parseParts_before hbefore (fun text => ?_) []
    rw [parseParts_shorthand ht hafter, parseParts_braced_path ht hword']
    exact .bind (parseParts_same ..) fun _ => rfl
  refine ⟨hparts, fun run scope => ?_⟩
  rw [map_eq_pure_bind, map_eq_pure_bind]
  exact .bind hparts fun _ => rfl

theorem shorthand_eq_braces_punctuated :
    Path.inText? "user/name".toList = some (⟨"user", ["name"]⟩, []) ∧ "user/name" ∉ sentinelWords ∧
    EndsInText "$x 5$ $$$\x7bstring:\x7b\x7d\x7d: ".toList ∧ Path.EndsPath ⟨"user", ["name"]⟩ "/.".toList ∧
    Same (parseTemplate "$x 5$ $$$\x7bstring:\x7b\x7d\x7d: $user/name/.")
      (parseTemplate "$x 5$ $$$\x7bstring:\x7b\x7d\x7d: $\x7buser/name\x7d/.") := by
  have ht : Path.inText? "user/name".toList = some (⟨"user", ["name"]⟩, []) := by decide +kernel
  have hinner : IsBalanced "string:\x7b\x7d".toList := by
    have hfronts : ∀ front ∈ "string:\x7b\x7d".toList.inits, front.count '\x7d' ≤ front.count '\x7b' := by decide
    exact ⟨fun front h => hfronts front ((List.mem_inits _ _).2 h), by decide⟩
  have hbefore : EndsInText "$x 5$ $$$\x7bstring:\x7b\x7d\x7d: ".toList := by
    have hend : EndsInText ": ".toList := .char (by decide) (.char (by decide) .nil)
    have hspace : EndsInText " $$$\x7bstring:\x7b\x7d\x7d: ".toList :=
      .char (by decide) (.dollars (.braces hinner hend))
    refine .dollar (by decide) (by decide) (.char (by decide) (.char (by decide) (.char (by decide) ?_)))
    exact .dollar (by decide) (by decide) hspace
  have hafter : Path.EndsPath ⟨"user", ["name"]⟩ "/.".toList :=
    ⟨.cons (by decide +kernel), by rintro rest ⟨⟩; exact .cons (by decide +kernel)⟩
  exact ⟨ht, by decide, hbefore, hafter, (shorthand_eq_braces ht (by decide) hbefore hafter).1⟩

/-- The word of a sentinel is a variable behind a dollar and the sentinel between braces. Host code in an interpolation
is no text, and a dollar in it stays as it is. -/
theorem shorthand_ne_braces :
    Path.inText? "nothing".toList = some (⟨"nothing", []⟩, []) ∧
    ¬ Same (parseTemplate "$nothing") (parseTemplate "$\x7bnothing\x7d") ∧
    Path.inText? "a".toList = some (⟨"a", []⟩, []) ∧
    ¬ Same (parseTemplate "$\x7bhost:$a\x7d") (parseTemplate "$\x7bhost:$\x7ba\x7d\x7d") := by
  have hword : Path.inText? "nothing".toList = some (⟨"nothing", []⟩, []) := by decide +kernel
  have hshort : parseTemplate "$nothing" = .ok [.interpolation (.path ⟨"nothing", []⟩)] := by
    have hend : Path.EndsPath ⟨"nothing", []⟩ [] := ⟨by rintro c ⟨⟩, by rintro rest ⟨⟩⟩
    have hnone : parseParts "$nothing".toList [] [] = .ok [] := by rw [parseParts]; rfl
    have hread := @parseParts_shorthand "$nothing".toList [] "nothing".toList [] _ hword hend
    rw [hnone] at hread
    exact hread
  have hbraces : parseTemplate "$\x7bnothing\x7d" = .ok [.interpolation .nothing] := by cbv
  have hhost : parseTemplate "$\x7bhost:$a\x7d" = .ok [.interpolation (.host "$a")] := by cbv
  have hhost' : parseTemplate "$\x7bhost:$\x7ba\x7d\x7d" = .ok [.interpolation (.host "$\x7ba\x7d")] := by cbv
  refine ⟨hword, fun h => ?_, by decide +kernel, fun h => ?_⟩
  · rw [hshort, hbraces] at h
    cases h
  · rw [hhost, hhost'] at h
    exact absurd h (by simp [Same, Except.mapError])

end Expression

end MarkupTemplate
