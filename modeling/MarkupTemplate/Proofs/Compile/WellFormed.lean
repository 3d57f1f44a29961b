import MarkupTemplate.Proofs.Compile.Balance
import MarkupTemplate.Proofs.Compile.Definitions

/-!
# Well-formed programs

What rendering relies on without looking: blocks are balanced, no block has an empty text or two texts in
a row, a call whose macro is known calls a macro of the table and passes parameters that the macro declares,
and the names of the main template mean macros of the table.
-/

namespace MarkupTemplate

namespace Block

/-! ### Joined texts -/

/-- No text of the block is empty or follows a text. -/
structure IsJoined (block : Block) : Prop where
  nonempty : .literal "" ∉ block
  apart : ∀ s t, ¬[.literal s, .literal t] <:+: block

variable {block xs ys : Block} {op : Operation}

namespace IsJoined

theorem nil : IsJoined [] where
  nonempty h := by cases h
  apart s t h := by simp at h

theorem reverse (h : IsJoined block) : IsJoined block.reverse where
  nonempty hm := h.nonempty (List.mem_reverse.1 hm)
  apart s t hi := by
    refine h.apart t s (List.reverse_infix.1 ?_)
    simpa using hi

theorem cons (h : IsJoined block) (hop : ∀ s, op ≠ .literal s) : IsJoined (op :: block) where
  nonempty hm := by
    rcases List.mem_cons.1 hm with hm | hm
    · exact hop _ hm.symm
    · exact h.nonempty hm
  apart s t hi := by
    rcases List.infix_cons_iff.1 hi with hi | hi
    · exact hop s (List.cons_prefix_cons.1 hi).1.symm
    · exact h.apart s t hi

theorem concat (h : IsJoined block) (hop : ∀ s, op ≠ .literal s) : IsJoined (block ++ [op]) := by
  have := (h.reverse.cons hop).reverse
  rwa [List.reverse_cons, List.reverse_reverse] at this

theorem append (h : IsJoined block) (hxs : ∀ op ∈ xs, ∀ s, op ≠ .literal s) : IsJoined (xs ++ block) := by
  induction xs with
  | nil => exact h
  | cons op xs ih => exact (ih fun op ho => hxs op (by simp [ho])).cons (hxs op (by simp))

theorem literal {s : String} (hs : s ≠ "") : IsJoined [.literal s] where
  nonempty hm := by
    cases List.mem_singleton.1 hm
    exact hs rfl
  apart s t hi := by
    have := hi.length_le
    simp at this

/-- A text before a block that has none at its head. -/
theorem literal_cons {s : String} (hs : s ≠ "") (h : IsJoined block)
    (hhead : ∀ t rest, block ≠ .literal t :: rest) : IsJoined (.literal s :: block) where
  nonempty hm := by
    rcases List.mem_cons.1 hm with hm | hm
    · cases hm
      exact hs rfl
    · exact h.nonempty hm
  apart t u hi := by
    rcases List.infix_cons_iff.1 hi with ⟨rest, hi⟩ | hi
    · cases hi
      exact hhead u rest rfl
    · exact h.apart t u hi

/-- A text is changed to one that is longer. -/
theorem lengthen {s t : String} (h : IsJoined (.literal s :: block)) : IsJoined (.literal (s ++ t) :: block) := by
  have hs : s ≠ "" := by
    rintro rfl
    exact h.nonempty List.mem_cons_self
  refine literal_cons (fun he => hs (String.append_eq_empty_iff.1 he).1) ?_ ?_
  · constructor
    · exact fun hm => h.nonempty (List.mem_cons_of_mem _ hm)
    · exact fun u v hi => h.apart u v (hi.trans (List.suffix_cons ..).isInfix)
  · rintro u rest rfl
    exact h.apart s u ⟨[], rest, rfl⟩

theorem push (h : IsJoined block) (op : Operation) : IsJoined (block.push op) := by
  cases op with
  | literal s =>
    unfold Block.push
    split
    · next hop =>
      cases hop
      exact h.lengthen
    · next hop hne =>
      cases hop
      split
      · exact h
      · next hs => exact literal_cons (fun he => hs (by simp [he])) h fun t rest hb => hne t rest hb
    · next hne _ => exact absurd rfl (hne s)
  | _ => exact h.cons (by simp)

theorem ofOperations (ops : List Operation) : IsJoined (Block.ofOperations ops) := by
  have hfold : ∀ (ops : List Operation) (block : Block), block.IsJoined → (ops.foldl Block.push block).IsJoined := by
    intro ops
    induction ops with
    | nil => exact fun _ h => h
    | cons op ops ih => exact fun block h => ih _ (h.push op)
  exact (hfold ops [] nil).reverse

theorem inScope (ds : List Directive.Definition) (h : IsJoined block) :
    IsJoined (DirectiveSet.inScope ds block) := by
  refine concat (append h ?_) (by simp)
  intro op hop
  rcases List.mem_cons.1 hop with rfl | hop
  · simp
  · obtain ⟨d, -, rfl⟩ := List.mem_map.1 hop
    simp

end IsJoined

end Block

/-! ### Calls -/

/-- A call of a known macro has it among the macros with these parameters, and passes only what it
declares. -/
def Operation.CallsKnown (parameters : List (List Parameter)) : Operation → Prop
  | .callMacro (.known id) _ arguments _ => ∃ declared, parameters[id]? = some declared ∧
      ∀ argument ∈ arguments, ∃ p ∈ declared, p.name = argument.1
  | _ => True

namespace Block

/-- The texts of a block are joined, and its calls are known. -/
structure IsTidy (parameters : List (List Parameter)) (block : Block) : Prop where
  joined : IsJoined block
  calls : ∀ op ∈ block, op.CallsKnown parameters

/-- Operations whose calls are known, with tidy blocks inside. -/
structure TidyInside (parameters : List (List Parameter)) (ops : List Operation) : Prop where
  calls : ∀ op ∈ ops, op.CallsKnown parameters
  inner : ∀ block ∈ inner ops, IsTidy parameters block

/-- A block and those inside are tidy. -/
def AllTidy (parameters : List (List Parameter)) (block : Block) : Prop :=
  ∀ b ∈ block :: inner block, b.IsTidy parameters

variable {parameters : List (List Parameter)} {block xs ys : Block} {op : Operation}

theorem AllTidy.inside (h : AllTidy parameters block) : TidyInside parameters block where
  calls := (h block (by simp)).calls
  inner b hb := h b (by simp [hb])

namespace TidyInside

theorem allTidy (h : TidyInside parameters block) (hj : IsJoined block) : AllTidy parameters block := by
  intro b hb
  rcases List.mem_cons.1 hb with rfl | hb
  · exact ⟨hj, h.calls⟩
  · exact h.inner b hb

theorem nil : TidyInside parameters [] where
  calls op h := by cases h
  inner b h := by cases h

theorem append (hx : TidyInside parameters xs) (hy : TidyInside parameters ys) :
    TidyInside parameters (xs ++ ys) where
  calls op h := (List.mem_append.1 h).elim (hx.calls op) (hy.calls op)
  inner b h := by
    rw [inner_append] at h
    exact (List.mem_append.1 h).elim (hx.inner b) (hy.inner b)

theorem single (hop : op.CallsKnown parameters) (hb : ∀ b ∈ op.blocks, b.IsTidy parameters) :
    TidyInside parameters [op] where
  calls o h := by rwa [List.mem_singleton.1 h]
  inner b h := hb b (by simpa [Block.inner] using h)

theorem ofOperations (h : TidyInside parameters xs) : TidyInside parameters (Block.ofOperations xs) where
  calls op hop := by
    rcases mem_of_mem_ofOperations hop with ⟨s, rfl⟩ | hop
    · trivial
    · exact h.calls op hop
  inner b hb := by
    rw [inner_ofOperations] at hb
    exact h.inner b hb

theorem inScope (ds : List Directive.Definition) (h : TidyInside parameters block) :
    TidyInside parameters (DirectiveSet.inScope ds block) := by
  have hds : TidyInside parameters (ds.map fun d => .define d.kind d.name d.value) := by
    induction ds with
    | nil => exact nil
    | cons d ds ih =>
      have hd : TidyInside parameters [.define d.kind d.name d.value] :=
        single trivial fun b hb => by cases hb
      exact hd.append ih
  have hpush : TidyInside parameters [.pushScope] := single trivial fun b hb => by cases hb
  have hpop : TidyInside parameters [.popScope] := single trivial fun b hb => by cases hb
  exact ((hpush.append hds).append h).append hpop

end TidyInside

theorem AllTidy.single (hop : op.CallsKnown parameters) (ht : ∀ s, op ≠ .literal s)
    (hb : ∀ b ∈ op.blocks, b.IsTidy parameters) : AllTidy parameters [op] :=
  (TidyInside.single hop hb).allTidy (.cons .nil ht)

theorem allTidy_ofFills {fills : List (String × Block)}
    (h : ∀ fill ∈ fills, AllTidy parameters fill.2) : ∀ b ∈ ofFills fills, IsTidy parameters b := by
  induction fills with
  | nil => intro b hb; cases hb
  | cons fill fills ih =>
    intro b hb
    rcases List.mem_append.1 hb with hb | hb
    · exact h fill (by simp) b hb
    · exact ih (fun fill hf => h fill (by simp [hf])) b hb

end Block

namespace BuildContext

variable {build : BuildContext}

/-- A target that is known is a macro that has a parameter for each argument. -/
theorem IsTarget.callsKnown {target : MacroTarget} {fills : List (String × Block)}
    {arguments : List (String × Argument)} {location : Location} (hr : build.registry.IsSound)
    (hlen : build.parameters.length = build.registry.definitions.length)
    (h : build.IsTarget target arguments location) :
    (Operation.callMacro target fills arguments location).CallsKnown build.parameters := by
  cases target with
  | computed e => trivial
  | known id =>
    obtain ⟨⟨e, he⟩, hu⟩ := h id rfl
    have hid : id < build.parameters.length := hlen ▸ hr.resolve?_lt he
    refine ⟨build.parameters[id], List.getElem?_eq_getElem hid, ?_⟩
    intro argument ha
    have := List.find?_eq_none.1 hu argument.1 (List.mem_map_of_mem ha)
    simpa [List.getElem?_eq_getElem hid] using this

/-- Whatever is built with a sound registry is tidy, and no macro of the tree is missing. -/
theorem keeps_tidy (hr : build.registry.IsSound)
    (hlen : build.parameters.length = build.registry.definitions.length) :
    build.Keeps (fun e => build.registry.Registers build.unit e.start) (Block.TidyInside build.parameters)
      (Block.AllTidy build.parameters) TemplateFault.IsOrdinary where
  nil := .nil
  literal _ := .single trivial fun b hb => by cases hb
  append := .append
  operations h := h.inside
  join h := h.ofOperations.allTidy (.ofOperations _)
  around {op block} hop _ hb := by
    cases op <;> cases hop <;> exact Block.AllTidy.single trivial (by simp) hb
  inScope hb := (hb.inside.inScope _).allTidy ((hb _ (by simp)).joined.inScope _)
  inPlace {element set id} _ _ _ hid := by
    have hlt : id < build.parameters.length := hlen ▸ MacroRegistry.definitionAt?_lt hid
    refine Block.AllTidy.single ⟨_, List.getElem?_eq_getElem hlt, List.forall_mem_nil _⟩ (by simp) ?_
    intro b hb
    cases hb
  call _ _ ht hf := .single (ht.callsKnown hr hlen) (by simp) (Block.allTidy_ofFills hf)
  compile := .compile
  macros problem location hp := by
    intro l h
    cases h
    exact hp rfl
  unregistered {element set} hs hset hd hnone := by
    have := hs ⟨set, hset, hd⟩
    rw [hnone] at this
    cases this

end BuildContext

/-! ### Parameters -/

/-- No two of the parameters have the same name. -/
def Parameter.AreDistinct (parameters : List Parameter) : Prop :=
  (parameters.map Parameter.name).Nodup

theorem Parameter.AreDistinct.nil : AreDistinct [] := List.nodup_nil

theorem Parameter.AreDistinct.concat {found : List Parameter} {p : Parameter} (h : AreDistinct found)
    (hp : found.any (·.name == p.name) = false) : AreDistinct (found ++ [p]) := by
  unfold AreDistinct
  rw [List.map_append, List.map_singleton, List.nodup_append]
  refine ⟨h, List.pairwise_singleton .., ?_⟩
  rintro _ hname _ hlast rfl
  obtain ⟨q, hq, hname⟩ := List.mem_map.1 hname
  exact List.any_eq_false.1 hp q hq (by simpa [hname] using hlast)

namespace Element

variable {E : TemplateFault → Prop} {found : List Parameter}

theorem declareAll_gives (hE : ∀ problem location, E (.compile problem location))
    (hf : Parameter.AreDistinct found) (set : DirectiveSet) :
    Gives Parameter.AreDistinct E (declareAll found set) := by
  unfold declareAll
  split
  · unfold declare
    refine (CompileProblem.located_gives hE _ _).bind fun declared _ _ => Gives.foldlM ?_ hf
    intro p _ found hf
    split
    · exact .error (hE ..)
    · next hp => exact .ok (hf.concat (Bool.eq_false_iff.2 hp))
  · exact .ok hf

mutual

theorem parametersOfNode_gives (hE : ∀ problem location, E (.compile problem location)) :
    ∀ (n : Node) {found : List Parameter}, Parameter.AreDistinct found →
      Gives Parameter.AreDistinct E (parametersOfNode found n)
  | .markup .., _, hf => .ok hf
  | .element start children closing, _, hf => by
    rw [parametersOfNode]
    refine (DirectiveSet.ofTag_gives hE start).bind fun set _ _ => ?_
    split
    · exact .ok hf
    · exact (declareAll_gives hE hf set).bind fun _ _ hf => parametersBelow_gives hE children hf

theorem parametersBelow_gives (hE : ∀ problem location, E (.compile problem location)) :
    ∀ (ns : List Node) {found : List Parameter}, Parameter.AreDistinct found →
      Gives Parameter.AreDistinct E (parametersBelow found ns)
  | [], _, hf => .ok hf
  | n :: ns, _, hf => by
    rw [parametersBelow]
    exact (parametersOfNode_gives hE n hf).bind fun _ _ hf => parametersBelow_gives hE ns hf

end

/-- What is declared twice is refused. -/
theorem parameters_gives (hE : ∀ problem location, E (.compile problem location)) (element : Element) :
    Gives Parameter.AreDistinct E element.parameters := by
  unfold parameters
  refine (DirectiveSet.ofTag_gives hE _).bind fun set _ _ => ?_
  exact (declareAll_gives hE .nil set).bind fun _ _ hf => parametersBelow_gives hE _ hf

end Element

/-! ### Programs -/

namespace Program

/-- What rendering relies on in a program. -/
structure IsWellFormed (program : Program) : Prop where
  balanced : ∀ b ∈ program.blocks, b.IsBalanced
  joined : ∀ b ∈ program.blocks, b.IsJoined
  calls : ∀ b ∈ program.blocks, ∀ id fills arguments location,
    .callMacro (.known id) fills arguments location ∈ b → ∃ m, program.macros[id]? = some m ∧
      ∀ argument ∈ arguments, ∃ p ∈ m.parameters, p.name = argument.1
  names : ∀ entry ∈ program.namespaces, ∀ found ∈ entry.2, found.2 < program.macros.length

variable {provider : ResourceProvider} {program : Program}

/-- All blocks of a program are tidy, for the macros that it has. -/
def IsTidy (program : Program) : Prop :=
  ∀ b ∈ program.blocks, b.IsTidy (program.macros.map Macro.parameters)

theorem isTidy_of_bodies {parameters : List (List Parameter)}
    (hp : program.macros.map Macro.parameters = parameters) (hb : Block.AllTidy parameters program.body)
    (hm : ∀ m ∈ program.macros, Block.AllTidy parameters m.body) : program.IsTidy := by
  subst hp
  intro b hmem
  obtain ⟨body, hbody, hmem⟩ := List.mem_flatMap.1 hmem
  rcases List.mem_cons.1 hbody with rfl | hbody
  · exact hb b hmem
  · obtain ⟨m, hmm, rfl⟩ := List.mem_map.1 hbody
    exact hm m hmm b hmem

theorem ofDocument_tidy (provider : ResourceProvider) (document : Document) (path : Option String) :
    Gives (fun program => program.IsTidy ∧ MacroNames.Below program.macros.length program.namespaces)
      TemplateFault.IsOrdinary (ofDocument provider document path) := by
  unfold ofDocument
  refine (MacroRegistry.ofMain_sound provider document path).bind fun r _ ⟨hr, hmain⟩ => ?_
  have hparameters : ∀ d ∈ r.definitions, Gives Parameter.AreDistinct TemplateFault.IsOrdinary
      d.element.parameters := fun d _ => Element.parameters_gives .compile _
  refine (Gives.mapM hparameters).bind fun parameters hp _ => ?_
  have hlen : parameters.length = r.definitions.length := length_of_mapM hp
  have hbuild : ∀ entry ∈ r.definitions.zip parameters,
      Gives (fun m : Macro => Block.AllTidy parameters m.body) TemplateFault.IsOrdinary
        (r.build parameters entry) := by
    intro ⟨d, declared⟩ hd
    have hnested := hr.nested d (List.of_mem_zip hd).1
    refine MacroRegistry.build_gives (BuildContext.keeps_tidy hr hlen) (fun e he => ?_) declared
    rcases List.mem_cons.1 he with rfl | he
    · exact hnested _ (by simp)
    · exact Node.forall_elementsOf (fun start hs => hnested start (by simp [hs])) e he
  refine (Gives.mapM hbuild).bind fun macros hm hmacros => ?_
  have hdeclared : macros.map Macro.parameters = parameters := by
    rw [map_of_mapM hm fun entry m h => (MacroRegistry.build_ok h).2.1]
    exact List.map_snd_zip hlen.le
  have hcount : macros.length = r.definitions.length := by
    rw [← hlen, ← hdeclared, List.length_map]
  have helements : ∀ e ∈ Node.elementsOf document.nodes, r.Registers 0 e.start := Node.forall_elementsOf hmain
  refine ((BuildContext.keeps_tidy hr hlen).nodes helements).bind fun body _ hbody => .ok ?_
  exact ⟨isTidy_of_bodies hdeclared hbody hmacros, hcount ▸ hr.namesOf 0⟩

theorem compile_tidy (provider : ResourceProvider) (mode : TemplateMode) (source : TemplateSource) :
    Gives (fun program => program.IsTidy ∧ MacroNames.Below program.macros.length program.namespaces)
      TemplateFault.IsOrdinary (compile provider mode source) := by
  cases mode with
  | markup =>
    unfold compile
    dsimp only
    split
    · exact .error (.markup _)
    · exact ofDocument_tidy ..
  | text =>
    refine .ok ⟨isTidy_of_bodies rfl ?_ (List.forall_mem_nil _), List.forall_mem_nil _⟩
    unfold ofText
    dsimp only
    split
    · exact Block.TidyInside.nil.allTidy .nil
    · next hs =>
      have hne : source.text ≠ "" := fun he => hs (by rw [he]; rfl)
      have hinside : Block.TidyInside [] [.literal source.text] :=
        .single trivial fun b hb => by cases hb
      exact hinside.allTidy (.literal hne)

/-- The macros of a compiled program have distinct parameters. -/
theorem distinct_of_compile {mode : TemplateMode} {source : TemplateSource}
    (h : compile provider mode source = .ok program) : ∀ m ∈ program.macros, Parameter.AreDistinct m.parameters := by
  obtain ⟨-, rfl⟩ | ⟨-, document, -, h⟩ := compile_cases h
  · exact List.forall_mem_nil _
  intro m hm
  obtain ⟨r, parameters, -, hparameters, hmacros, -, -⟩ := ofDocument_ok h
  obtain ⟨⟨d, declared⟩, hd, hbuild⟩ := mem_of_mapM_ok hmacros hm
  rw [(MacroRegistry.build_ok hbuild).2.1]
  obtain ⟨d, -, hdeclared⟩ := mem_of_mapM_ok hparameters (List.of_mem_zip hd).2
  have hgives : Gives Parameter.AreDistinct (fun _ => True) d.element.parameters :=
    Element.parameters_gives (fun _ _ => trivial) d.element
  exact hgives.of_ok hdeclared

theorem compile_gives (provider : ResourceProvider) (mode : TemplateMode) (source : TemplateSource) :
    Gives IsWellFormed TemplateFault.IsOrdinary (compile provider mode source) := by
  refine (compile_tidy provider mode source).imp fun program hc ⟨ht, hn⟩ => ?_
  constructor
  · exact isBalanced_of_compile hc
  · exact fun b hb => (ht b hb).joined
  · intro b hb id fills arguments location hop
    obtain ⟨declared, hd, ha⟩ := (ht b hb).calls _ hop
    rw [List.getElem?_map] at hd
    obtain ⟨m, hm, rfl⟩ := Option.map_eq_some_iff.1 hd
    exact ⟨m, hm, ha⟩
  · exact hn

/-- Compiled programs are well-formed, and no compilation misses a macro that was not registered. -/
theorem isWellFormed_of_compile (provider : ResourceProvider) (mode : TemplateMode)
    (source : TemplateSource) :
    (∀ program, compile provider mode source = .ok program → program.IsWellFormed) ∧
      ∀ location, compile provider mode source ≠ .error (.macros .unregistered location) := by
  have h := compile_gives provider mode source
  constructor
  · exact fun program hc => h.of_ok hc
  · exact fun location hc => h.of_error hc location rfl

/-- A call of an imported macro, in which another one stands. -/
def nestedMacros : TemplateSource :=
  ⟨"<metal:p import=\"l\" use-macro=\"macros/o\"/>", none⟩

/-- The import of `nestedMacros`. -/
def nestedLibrary : ResourceProvider :=
  (MemoryStore.ofTexts [("l", "<metal:a define-macro=\"o\"><metal:b define-macro=\"m\"/></metal:a>")]).provider

theorem isWellFormed_nestedMacros : ∃ program, compile nestedLibrary .markup nestedMacros = .ok program ∧
    program.macros.length = 2 ∧ program.IsWellFormed := by
  have hc : (compile nestedLibrary .markup nestedMacros).toOption.any (·.macros.length = 2) := by
    decide +kernel
  cases hp : compile nestedLibrary .markup nestedMacros with
  | error fault => rw [hp] at hc; cases hc
  | ok program =>
    rw [hp] at hc
    have hw := (isWellFormed_of_compile nestedLibrary .markup nestedMacros).1 program hp
    exact ⟨program, rfl, of_decide_eq_true hc, hw⟩

end Program

end MarkupTemplate
