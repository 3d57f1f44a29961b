import MarkupTemplate.Proofs.Compile.Balance
import MarkupTemplate.Proofs.Compile.Units

/-!
# Where the operations of a program come from

Everything that a compilation lays down is an operation without a part of the program in it, or laid around a block,
or the call of a macro, and each of the last two is there for an element of the main template or of one that it leads
to. What holds of all of these (`BuildContext.Lays`) holds of every operation of the program
(`Compilation.of_contains`).
-/

namespace MarkupTemplate

namespace Block

/-- All operations of a block, at any depth, have a property. -/
def Everywhere (Q : Operation → Prop) (block : Block) : Prop :=
  ∀ b ∈ block :: inner block, ∀ op ∈ b, Q op

namespace Everywhere

variable {Q : Operation → Prop} {xs ys block : Block} {op : Operation}

theorem nil : Everywhere Q [] := by
  intro b hb op hop
  rw [List.mem_singleton.1 hb] at hop
  cases hop

theorem append (hx : Everywhere Q xs) (hy : Everywhere Q ys) : Everywhere Q (xs ++ ys) := by
  intro b hb op hop
  rcases List.mem_cons.1 hb with rfl | hb
  · rcases List.mem_append.1 hop with hop | hop
    · exact hx xs (by simp) op hop
    · exact hy ys (by simp) op hop
  · rw [inner_append] at hb
    rcases List.mem_append.1 hb with hb | hb
    · exact hx b (by simp [hb]) op hop
    · exact hy b (by simp [hb]) op hop

theorem single (hop : Q op) (hb : ∀ b ∈ op.blocks, ∀ o ∈ b, Q o) : Everywhere Q [op] := by
  intro b h o ho
  rcases List.mem_cons.1 h with rfl | h
  · rwa [List.mem_singleton.1 ho]
  · exact hb b (by simpa [Block.inner] using h) o ho

theorem ofOperations (hliteral : ∀ s, Q (.literal s)) (h : Everywhere Q xs) :
    Everywhere Q (Block.ofOperations xs) := by
  intro b hb op hop
  rcases List.mem_cons.1 hb with rfl | hb
  · rcases mem_of_mem_ofOperations hop with ⟨s, rfl⟩ | hop
    · exact hliteral s
    · exact h xs (by simp) op hop
  · rw [inner_ofOperations] at hb
    exact h b (by simp [hb]) op hop

theorem inScope (hpush : Q .pushScope) (hpop : Q .popScope) (hdefine : ∀ kind name e, Q (.define kind name e))
    (ds : List Directive.Definition) (h : Everywhere Q block) : Everywhere Q (DirectiveSet.inScope ds block) := by
  have hds : Everywhere Q (ds.map fun d => .define d.kind d.name d.value) := by
    induction ds with
    | nil => exact nil
    | cons d ds ih =>
      have hd : Everywhere Q [.define d.kind d.name d.value] := single (hdefine ..) nofun
      exact hd.append ih
  have hfirst : Everywhere Q [.pushScope] := single hpush nofun
  have hlast : Everywhere Q [.popScope] := single hpop nofun
  exact ((hfirst.append hds).append h).append hlast

theorem ofFills {fills : List (String × Block)} (h : ∀ fill ∈ fills, Everywhere Q fill.2) :
    ∀ b ∈ ofFills fills, ∀ op ∈ b, Q op := by
  induction fills with
  | nil => nofun
  | cons fill fills ih =>
    intro b hb
    rcases List.mem_append.1 hb with hb | hb
    · exact h fill (by simp) b hb
    · exact ih (fun fill hf => h fill (by simp [hf])) b hb

end Everywhere

end Block

/-- The operation calls a macro. -/
def Operation.IsCall : Operation → Prop
  | .callMacro .. => True
  | _ => False

namespace BuildContext

/-- What is laid down for elements with a property, and for nothing in particular, has another property. -/
structure Lays (build : BuildContext) (H : Element → Prop) (Q : Operation → Prop) : Prop where
  plain : ∀ {op}, op.body? = none → ¬op.IsCall → Q op
  around : ∀ {op block}, op.body? = some block → op.IsPlanned H → Q op
  inPlace : ∀ {element set id}, H element → DirectiveSet.ofTag element.start = .ok set →
    (set.metal? .defineMacro).isSome → Q (.callMacro (.known id) [] [] element.start.location)
  call : ∀ {element target} {fills : Fills} {location}, H element → build.Uses element fills location →
    Q (.callMacro target fills.slots fills.arguments location)

/-- Whatever is built is of what is laid down; nothing is said of what fails. -/
theorem Lays.keeps {build : BuildContext} {H : Element → Prop} {Q : Operation → Prop} (h : build.Lays H Q) :
    build.Keeps H (Block.Everywhere Q) (Block.Everywhere Q) (fun _ => True) where
  nil := .nil
  literal _ := .single (h.plain rfl id) nofun
  append := .append
  operations h := h
  join := .ofOperations fun _ => h.plain rfl id
  around {op block} hop hplanned hb := by
    have hq := h.around hop hplanned
    cases op <;> cases hop <;> exact .single hq hb
  inScope := .inScope (h.plain rfl id) (h.plain rfl id) (fun _ _ _ => h.plain rfl id) _
  inPlace he hset hd _ := .single (h.inPlace he hset hd) nofun
  call he hu _ hf := .single (h.call he hu) (Block.Everywhere.ofFills hf)
  compile _ _ := trivial
  macros _ _ _ := trivial
  unregistered _ _ _ _ := trivial

end BuildContext

/-- A text is written by nothing but texts. -/
theorem Program.contains_ofText {source : String} {op : Operation} (h : (ofText source).Contains op) :
    ∃ s, op = .literal s := by
  obtain ⟨b, hb, hop⟩ := h
  unfold ofText blocks at hb
  split at hb
  · simp [Block.inner] at hb
    simp [hb] at hop
  · simp [Block.inner, Operation.blocks] at hb
    rw [hb] at hop
    exact ⟨source, List.mem_singleton.1 hop⟩

namespace Compilation

/-- An element of the main template or of one that it leads to. -/
def HasElement (c : Compilation) (element : Element) : Prop :=
  ∃ path document, c.Leads path ∧ c.TreeAt path document ∧ element ∈ Node.elementsOf document.nodes

variable {c : Compilation} {r : MacroRegistry} {program : Program}

/-- The elements of a macro are of one of the templates. -/
theorem hasElement_of_definitions (h : MacroRegistry.ofMain c.provider c.document c.path = .ok r)
    {d : MacroDefinition} (hd : d ∈ r.definitions) :
    ∀ e ∈ d.element :: Node.elementsOf d.element.children, c.HasElement e := by
  obtain ⟨hr, -⟩ := (ofMain_progress c).of_ok h
  obtain ⟨u, hu, hp⟩ := hr.owners d hd
  obtain ⟨document, directives, hunit, -⟩ := hr.units d.unit u hu hp
  have hdefined : d ∈ directives.macros.map (MacroRegistry.definitionOf d.unit) := by
    rw [← hunit.defined]
    exact List.mem_filter.2 ⟨hd, beq_self_eq_true _⟩
  obtain ⟨m, hm, hdm⟩ := List.mem_map.1 hdefined
  intro e he
  rw [← hdm] at he
  have hmem := MacroDirectives.elementsOf_of_mem_macros _ hunit.valid m hm e he
  exact ⟨u.path, document, hr.leads _ (MacroRegistry.mem_paths hu), hunit.tree, hmem⟩

/-- What holds of all that is laid down for the elements of a compilation holds of each operation. -/
theorem of_contains (c : Compilation) {Q : Operation → Prop}
    (h : Program.ofDocument c.provider c.document c.path = .ok program)
    (hQ : ∀ build : BuildContext, build.Lays c.HasElement Q) {op : Operation} (hop : program.Contains op) :
    Q op := by
  obtain ⟨r, parameters, hr, -, hmacros, hbody, -⟩ := Program.ofDocument_ok h
  obtain ⟨b, hb, hop⟩ := hop
  obtain ⟨outer, houter, hb⟩ := List.mem_flatMap.1 hb
  rcases List.mem_cons.1 houter with rfl | houter
  · have hmain : ∀ e ∈ Node.elementsOf c.document.nodes, c.HasElement e :=
      fun e he => ⟨c.path, c.document, .refl, .main, he⟩
    exact ((hQ _).keeps.nodes hmain).of_ok hbody b hb op hop
  · obtain ⟨m, hm, rfl⟩ := List.mem_map.1 houter
    obtain ⟨⟨d, declared⟩, hdm, hbuild⟩ := mem_of_mapM_ok hmacros hm
    have hd := hasElement_of_definitions hr (List.of_mem_zip hdm).1
    exact (MacroRegistry.build_gives (hQ _).keeps hd declared).of_ok hbuild b hb op hop

end Compilation

end MarkupTemplate
