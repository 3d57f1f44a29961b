import MarkupTemplate.Proofs.Compile.Provenance

/-!
# Arguments of calls

An element that uses a macro passes the arguments that stand on it, and then, in document order, those that stand
below it. Below what fills a slot and below what uses another macro there is no search, but what stands on such an
element itself is passed, also where the element uses a macro that it passes them to as well
(`Program.arguments_of_calls`).
-/

namespace MarkupTemplate

namespace StartTag

/-- The directives of the tag, if they are right, have one of a kind. -/
def hasMetal (start : StartTag) (kind : MetalKind) : Bool :=
  (DirectiveSet.ofTag start).toOption.any fun set => (set.metal? kind).isSome

/-- The arguments that stand on the tag. -/
def arguments (start : StartTag) : List (String × Argument) :=
  let d? := (DirectiveSet.ofTag start).toOption.bind (·.metal? .fillParam)
  (d?.bind fun d => (Directive.arguments d.argument d.location).toOption).getD []

/-- What stands below the tag is not searched for arguments of a call around it. -/
def isClosed (start : StartTag) : Bool :=
  start.hasMetal .useMacro || start.hasMetal .fillSlot

variable {start : StartTag} {set : DirectiveSet}

theorem hasMetal_eq (h : DirectiveSet.ofTag start = .ok set) (kind : MetalKind) :
    start.hasMetal kind = (set.metal? kind).isSome := by
  rw [hasMetal, h]
  rfl

theorem arguments_eq (h : DirectiveSet.ofTag start = .ok set) {given found : Fills}
    (ha : given.addArguments set = .ok found) : found.arguments = given.arguments ++ start.arguments := by
  unfold Fills.addArguments at ha
  unfold arguments
  rw [h]
  simp only [Except.toOption, Option.bind_some]
  split at ha
  · next hd =>
    cases ha
    rw [hd]
    exact (List.append_nil _).symm
  · next d hd =>
    obtain ⟨more, hm, ha⟩ := bind_eq_ok.1 ha
    cases ha
    rw [hd, Option.bind_some, CompileProblem.located_ok hm]
    rfl

end StartTag

namespace Node

mutual

/-- The tags of a node in document order, each with those that it lies below besides those `above` it all. -/
def placedTags (above : List StartTag) : Node → List (List StartTag × StartTag)
  | .markup .. => []
  | .element start children _ => (above, start) :: placedTagsOf (start :: above) children

/-- The tags of nodes in document order, each with those that it lies below. -/
def placedTagsOf (above : List StartTag) : List Node → List (List StartTag × StartTag)
  | [] => []
  | n :: ns => n.placedTags above ++ placedTagsOf above ns

end

mutual

theorem above_of_mem_placedTags : ∀ (n : Node) {above : List StartTag}, ∀ placed ∈ n.placedTags above,
    above <:+ placed.1
  | .markup .., _, _, h => by cases h
  | .element start children _, above, placed, h => by
    rcases List.mem_cons.1 h with rfl | h
    · exact List.suffix_rfl
    · exact (List.suffix_cons start above).trans (above_of_mem_placedTagsOf children placed h)

theorem above_of_mem_placedTagsOf : ∀ (ns : List Node) {above : List StartTag},
    ∀ placed ∈ placedTagsOf above ns, above <:+ placed.1
  | [], _, _, h => by cases h
  | n :: ns, _, placed, h => (List.mem_append.1 h).elim (above_of_mem_placedTags n placed)
    (above_of_mem_placedTagsOf ns placed)

end

/-- The tag lies below none that is closed. -/
def isSearched (placed : List StartTag × StartTag) : Bool :=
  placed.1.all fun start => !start.isClosed

/-- The arguments on those of some tags that are searched. -/
def argumentsOn (placed : List (List StartTag × StartTag)) : List (String × Argument) :=
  (placed.filter isSearched).flatMap fun placed => placed.2.arguments

theorem argumentsOn_append (xs ys : List (List StartTag × StartTag)) :
    argumentsOn (xs ++ ys) = argumentsOn xs ++ argumentsOn ys := by
  rw [argumentsOn, List.filter_append, List.flatMap_append]
  rfl

/-- Below a closed tag there is no search. -/
theorem argumentsOn_closed {start : StartTag} (h : start.isClosed) (above : List StartTag) (ns : List Node) :
    argumentsOn (placedTagsOf (start :: above) ns) = [] := by
  have hnone : (placedTagsOf (start :: above) ns).filter isSearched = [] := by
    refine List.filter_eq_nil_iff.2 fun placed hp hs => ?_
    have hmem := (above_of_mem_placedTagsOf ns placed hp).subset List.mem_cons_self
    simpa [h] using List.all_eq_true.1 hs start hmem
  rw [argumentsOn, hnone]
  rfl

end Node

/-! ### What a use of a macro collects -/

namespace BuildContext

open Node

variable {build : BuildContext}

mutual

theorem arguments_fillsOfNode : ∀ (n : Node) {given found : Fills} {above : List StartTag},
    above.all (fun start => !start.isClosed) → build.fillsOfNode given n = .ok found →
      found.arguments = given.arguments ++ argumentsOn (n.placedTags above)
  | .markup .., _, _, _, _, h => by
    cases h
    exact (List.append_nil _).symm
  | .element start children closing, given, found, above, ha, h => by
    rw [fillsOfNode] at h
    obtain ⟨set, hset, h⟩ := bind_eq_ok.1 h
    obtain ⟨own, hown, h⟩ := bind_eq_ok.1 h
    have hfirst : own.arguments = given.arguments ++ argumentsOn [(above, start)] := by
      rw [StartTag.arguments_eq hset hown]
      simp [argumentsOn, isSearched, ha]
    have hclosed : start.isClosed = ((set.metal? .useMacro).isSome || (set.metal? .fillSlot).isSome) := by
      rw [StartTag.isClosed, StartTag.hasMetal_eq hset, StartTag.hasMetal_eq hset]
    rw [placedTags, ← List.singleton_append, argumentsOn_append, ← List.append_assoc, ← hfirst]
    have hstop (hc : start.isClosed) (he : found.arguments = own.arguments) :
        found.arguments = own.arguments ++ argumentsOn (placedTagsOf (start :: above) children) := by
      rw [argumentsOn_closed hc, List.append_nil, he]
    cases hslot : set.metal? .fillSlot with
    | some d =>
      have hc : start.isClosed := by simp [hclosed, hslot]
      rw [hslot] at h
      dsimp only at h
      split at h
      · cases h
        exact hstop hc rfl
      · obtain ⟨body, -, h⟩ := bind_eq_ok.1 h
        cases h
        exact hstop hc rfl
    | none =>
      rw [hslot] at h
      dsimp only at h
      split at h
      · next hu =>
        cases h
        exact hstop (by simp [hclosed, hu]) rfl
      · next hu =>
        refine arguments_fillsOf children ?_ h
        simp [hclosed, hslot, hu, ha]

theorem arguments_fillsOf : ∀ (ns : List Node) {given found : Fills} {above : List StartTag},
    above.all (fun start => !start.isClosed) → build.fillsOf given ns = .ok found →
      found.arguments = given.arguments ++ argumentsOn (placedTagsOf above ns)
  | [], _, _, _, _, h => by
    cases h
    exact (List.append_nil _).symm
  | n :: ns, given, found, above, ha, h => by
    rw [fillsOf] at h
    obtain ⟨first, hf, h⟩ := bind_eq_ok.1 h
    rw [placedTagsOf, argumentsOn_append, ← List.append_assoc, ← arguments_fillsOfNode n ha hf]
    exact arguments_fillsOf ns ha h

end

end BuildContext

/-- The arguments that an element passes where it uses a macro: its own, then those below it that are searched. -/
def Element.arguments (element : Element) : List (String × Argument) :=
  element.start.arguments ++ Node.argumentsOn (Node.placedTagsOf [] element.children)

/-- The same without the arguments of elements below it that use macros themselves. -/
def Element.ownArguments (element : Element) : List (String × Argument) :=
  element.start.arguments ++
    Node.argumentsOn ((Node.placedTagsOf [] element.children).filter fun placed => !placed.2.hasMetal .useMacro)

theorem BuildContext.Uses.arguments_eq {build : BuildContext} {element : Element} {fills : Fills}
    {location : Location} (h : build.Uses element fills location) : fills.arguments = element.arguments := by
  obtain ⟨hset, -, hg, hf⟩ := h
  rw [arguments_fillsOf _ List.all_nil hf, StartTag.arguments_eq hset hg]
  rfl

/-- A call of an element that passes `passed` where it uses a macro; in the place of a macro that it defines, it
passes nothing. -/
inductive Element.Calls (element : Element) (passed : List (String × Argument)) :
    List (String × Argument) → Location → Prop
  | inPlace (h : element.start.hasMetal .defineMacro) : element.Calls passed [] element.start.location
  | use {set : DirectiveSet} {use : Directive MetalKind} (hset : DirectiveSet.ofTag element.start = .ok set)
      (hu : set.metal? .useMacro = some use) : element.Calls passed passed use.location

/-- Only elements call, and only with the arguments that they pass. -/
theorem BuildContext.lays_calls (build : BuildContext) (H : Element → Prop) : build.Lays H fun op =>
    ∀ target fills arguments location, op = .callMacro target fills arguments location →
      ∃ element, H element ∧ element.Calls element.arguments arguments location where
  plain _ hno := by
    rintro _ _ _ _ rfl
    exact absurd trivial hno
  around hbody _ := by
    rintro _ _ _ _ rfl
    cases hbody
  inPlace he hset hd := by
    rintro _ _ _ _ ⟨⟩
    exact ⟨_, he, .inPlace (by rwa [StartTag.hasMetal_eq hset])⟩
  call he hu := by
    rintro _ _ _ _ ⟨⟩
    refine ⟨_, he, ?_⟩
    rw [hu.arguments_eq]
    obtain ⟨hset, hu, -, -⟩ := hu
    exact .use hset hu

namespace BuildContext

variable {build : BuildContext} {element : Element} {set : DirectiveSet} {use : Directive MetalKind} {out : Block}

theorem call_ok (hset : DirectiveSet.ofTag element.start = .ok set) (hu : set.metal? .useMacro = some use)
    (h : build.call set use (build.fillsOf · element.children) = .ok out) :
    ∃ target fills, build.Uses element fills use.location ∧
      out = [.callMacro target fills.slots fills.arguments use.location] := by
  obtain ⟨e, -, h⟩ := bind_eq_ok.1 h
  obtain ⟨id?, -, h⟩ := bind_eq_ok.1 h
  obtain ⟨given, hg, h⟩ := bind_eq_ok.1 h
  obtain ⟨fills, hf, h⟩ := bind_eq_ok.1 h
  have huses : build.Uses element fills use.location := .intro hset hu hg hf
  cases id? with
  | none =>
    cases h
    exact ⟨_, fills, huses, rfl⟩
  | some id =>
    dsimp only at h
    split at h
    · cases h
    · cases h
      exact ⟨_, fills, huses, rfl⟩

/-- What an element that uses a macro comes to, unless it stands for a macro that it defines: one call, with what
else its directives say around it. -/
theorem call_of_element {children : Unit → Except TemplateFault Block}
    (hset : DirectiveSet.ofTag element.start = .ok set) (hu : set.metal? .useMacro = some use)
    (h : build.element element.start element.closing children (build.fillsOf · element.children) = .ok out) :
    element.start.hasMetal .defineMacro ∧ (∃ id, out = [.callMacro (.known id) [] [] element.start.location]) ∨
      ∃ target fills, let call := set.wrapped [.callMacro target fills element.arguments use.location]
        out = (set.metal? .defineSlot).elim call fun d => [.slot (Text.trimString d.argument) call] := by
  obtain ⟨set', hset', hout⟩ := element_ok h
  cases hset.symm.trans hset'
  obtain ⟨hd, id, -, hid⟩ | ⟨core, hcore, hout⟩ := hout
  · exact .inl ⟨by rwa [StartTag.hasMetal_eq hset], id, hid⟩
  · rw [hu] at hcore
    obtain ⟨target, fills, huses, rfl⟩ := call_ok hset hu hcore
    refine .inr ⟨target, fills.slots, ?_⟩
    rw [← huses.arguments_eq, hout]
    cases set.metal? .defineSlot <;> rfl

end BuildContext

namespace Program

/-- The calls of a compiled program are those of elements of the templates, which pass the arguments that stand on
them and then those below them that are searched; and this is what each element that uses a macro comes to. -/
theorem arguments_of_calls {provider : ResourceProvider} {mode : TemplateMode} {source : TemplateSource}
    {program : Program} (h : compile provider mode source = .ok program) :
    (∀ target fills arguments location, program.Contains (.callMacro target fills arguments location) →
      ∃ document, Document.parse source.text source.path = .ok document ∧
        ∃ element, (⟨provider, document, source.path⟩ : Compilation).HasElement element ∧
          element.Calls element.arguments arguments location) ∧
    ∀ (build : BuildContext) (element : Element) (children : Unit → Except TemplateFault Block)
      (set : DirectiveSet) (use : Directive MetalKind) (out : Block),
      DirectiveSet.ofTag element.start = .ok set → set.metal? .useMacro = some use →
      build.element element.start element.closing children (build.fillsOf · element.children) = .ok out →
      element.start.hasMetal .defineMacro ∧
          (∃ id, out = [.callMacro (.known id) [] [] element.start.location]) ∨
        ∃ target fills, let call := set.wrapped [.callMacro target fills element.arguments use.location]
          out = (set.metal? .defineSlot).elim call fun d => [.slot (Text.trimString d.argument) call] := by
  refine ⟨fun target fills arguments location hop => ?_, fun _ _ _ _ _ _ => BuildContext.call_of_element⟩
  rcases compile_cases h with ⟨-, rfl⟩ | ⟨-, document, hd, h⟩
  · obtain ⟨s, hs⟩ := contains_ofText hop
    cases hs
  · let c : Compilation := ⟨provider, document, source.path⟩
    exact ⟨document, hd, c.of_contains h (BuildContext.lays_calls · _) hop _ _ _ _ rfl⟩

/-- A macro is used below another use of it, with an argument. -/
def nestedUse : TemplateSource :=
  ⟨"<a metal:define-macro=\"m\" metal:define-param=\"int y 7\" tal:content=\"y\"/>" ++
    "<p metal:use-macro=\"macros/m\"><q metal:use-macro=\"macros/m\" metal:fill-param=\"y 1\"/></p>", none⟩

/-- An element that uses a macro by a directive at the place has no argument of its own. -/
def bareAt (location : Location) (element : Element) : Bool :=
  (DirectiveSet.ofTag element.start).toOption.all fun set => (set.metal? .useMacro).all fun use =>
    use.location != location || element.ownArguments.isEmpty

/-- The second of two operations, if it is a call. -/
def secondCall? : Block → Option Operation
  | [_, .callMacro target fills arguments location] => some (.callMacro target fills arguments location)
  | _ => none

/-- The names of the arguments of a call. -/
def passedNames : Operation → List String
  | .callMacro _ _ arguments _ => arguments.map Prod.fst
  | _ => []

theorem call_nestedUse : ∃ document program target fills arguments location,
    Document.parse nestedUse.text nestedUse.path = .ok document ∧
    compile (MemoryStore.ofTexts []).provider .markup nestedUse = .ok program ∧
    program.Contains (.callMacro target fills arguments location) ∧ arguments.map Prod.fst = ["y"] ∧
    ∀ element ∈ Node.elementsOf document.nodes, bareAt location element := by
  have hd : (Document.parse nestedUse.text nestedUse.path).toOption.any fun document =>
      (ofDocument (MemoryStore.ofTexts []).provider document nestedUse.path).toOption.any fun program =>
        (secondCall? program.body).any fun op => passedNames op == ["y"] &&
          match op with
          | .callMacro _ _ _ location => (Node.elementsOf document.nodes).all (bareAt location)
          | _ => false := by
    decide +kernel
  obtain ⟨document, hdocument, hd⟩ := (Option.any_eq_true ..).1 hd
  obtain ⟨program, hp, hd⟩ := (Option.any_eq_true ..).1 hd
  have hdocument := eq_ok_of_toOption hdocument
  have hp : compile (MemoryStore.ofTexts []).provider .markup nestedUse = .ok program :=
    (compile_of_parse hdocument).trans (eq_ok_of_toOption hp)
  obtain ⟨op, hop, hd⟩ := (Option.any_eq_true ..).1 hd
  obtain ⟨hnames, hbare⟩ := Bool.and_eq_true_iff.1 hd
  unfold secondCall? at hop
  split at hop
  · next target fills arguments location hbody =>
    cases hop
    have hcontains : program.Contains (.callMacro target fills arguments location) :=
      ⟨program.body, by simp [blocks], by rw [hbody]; simp⟩
    exact ⟨document, program, target, fills, arguments, location, hdocument, hp, hcontains, beq_iff_eq.1 hnames,
      List.all_eq_true.1 hbare⟩
  · cases hop

theorem arguments_of_calls_nestedUse : ∃ document program target fills arguments location element,
    compile (MemoryStore.ofTexts []).provider .markup nestedUse = .ok program ∧
    program.Contains (.callMacro target fills arguments location) ∧ arguments.map Prod.fst = ["y"] ∧
    (⟨(MemoryStore.ofTexts []).provider, document, none⟩ : Compilation).HasElement element ∧
    element.Calls element.arguments arguments location := by
  obtain ⟨_, program, target, fills, arguments, location, -, hp, hcontains, hnames, -⟩ := call_nestedUse
  obtain ⟨document, -, element, he, hcalls⟩ := (arguments_of_calls hp).1 target fills arguments location hcontains
  exact ⟨document, program, target, fills, arguments, location, element, hp, hcontains, hnames, he, hcalls⟩

/-- The argument of the nested use is passed to the macro around it as well. -/
theorem arguments_ne_ownArguments : ¬∀ (provider : ResourceProvider) (source : TemplateSource)
    (document : Document) (program : Program) (target : MacroTarget) (fills : List (String × Block))
    (arguments : List (String × Argument)) (location : Location),
    Document.parse source.text source.path = .ok document → compile provider .markup source = .ok program →
    program.Contains (.callMacro target fills arguments location) →
    ∃ element, (⟨provider, document, source.path⟩ : Compilation).HasElement element ∧
      element.Calls element.ownArguments arguments location := by
  intro h
  obtain ⟨document, program, target, fills, arguments, location, hd, hp, hcontains, hnames, hbare⟩ := call_nestedUse
  obtain ⟨element, ⟨path, tree, -, htree, he⟩, hcalls⟩ := h _ _ document program _ _ _ _ hd hp hcontains
  cases htree with
  | loaded _ ht => cases ht
  | main =>
    cases hcalls with
    | inPlace => cases hnames
    | use hset hu =>
      have hown := hbare element he
      simp [bareAt, hset, hu, Except.toOption] at hown
      rw [hown] at hnames
      cases hnames

end Program

end MarkupTemplate
