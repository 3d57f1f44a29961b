import MarkupTemplate.Proofs.Compile.Traversal

/-!
# Balanced blocks

In a balanced block every frame opened is closed again, nothing is closed that the block has not opened,
and definitions write to frames of the block's own. `Program.isBalanced_of_compile`: all blocks of a
compiled program are balanced, at whatever depth they stand.
-/

namespace MarkupTemplate

/-- The frames that a block has open behind an operation, if it had `n` before it. Closing a frame and
defining a variable need one. -/
def Operation.level? (n : Nat) : Operation → Option Nat
  | .pushScope => some (n + 1)
  | .popScope => if n = 0 then none else some (n - 1)
  | .define .. => if n = 0 then none else some n
  | _ => some n

mutual

/-- The blocks inside an operation, at any depth. -/
def Operation.blocks : Operation → List Block
  | .emit _ _ fallback => fallback :: Block.inner fallback
  | .condition _ body => body :: Block.inner body
  | .repeat _ _ body => body :: Block.inner body
  | .element _ body => body :: Block.inner body
  | .onError body _ _ => body :: Block.inner body
  | .callMacro _ fills _ _ => Block.ofFills fills
  | .slot _ fallback => fallback :: Block.inner fallback
  | _ => []

/-- The blocks inside the operations of a block, at any depth. -/
def Block.inner : List Operation → List Block
  | [] => []
  | op :: ops => op.blocks ++ Block.inner ops

/-- The blocks of what a call fills in, and those inside them. -/
def Block.ofFills : List (String × List Operation) → List Block
  | [] => []
  | (_, body) :: fills => body :: Block.inner body ++ Block.ofFills fills

end

mutual

theorem Operation.mem_blocks_of_mem_inner {b b' : Block} : ∀ {op : Operation}, b ∈ op.blocks →
    b' ∈ Block.inner b → b' ∈ op.blocks
  | .emit _ _ fallback, hb, hb' => Block.mem_of_mem_inner hb hb'
  | .condition _ body, hb, hb' => Block.mem_of_mem_inner hb hb'
  | .repeat _ _ body, hb, hb' => Block.mem_of_mem_inner hb hb'
  | .element _ body, hb, hb' => Block.mem_of_mem_inner hb hb'
  | .onError body _ _, hb, hb' => Block.mem_of_mem_inner hb hb'
  | .callMacro _ fills _ _, hb, hb' => Block.mem_ofFills_of_mem_inner hb hb'
  | .slot _ fallback, hb, hb' => Block.mem_of_mem_inner hb hb'
  | .literal _, hb, _ => by cases hb
  | .pushScope, hb, _ => by cases hb
  | .popScope, hb, _ => by cases hb
  | .define .., hb, _ => by cases hb

/-- The blocks inside one of these are among them. -/
theorem Block.mem_of_mem_inner {b b' : Block} : ∀ {body : List Operation},
    b ∈ body :: Block.inner body → b' ∈ Block.inner b → b' ∈ body :: Block.inner body
  | body, hb, hb' => by
    rcases List.mem_cons.1 hb with rfl | hb
    · exact List.mem_cons_of_mem _ hb'
    · exact List.mem_cons_of_mem _ (Block.mem_inner_of_mem_inner hb hb')

theorem Block.mem_inner_of_mem_inner {b b' : Block} : ∀ {ops : List Operation}, b ∈ Block.inner ops →
    b' ∈ Block.inner b → b' ∈ Block.inner ops
  | op :: ops, hb, hb' => by
    rcases List.mem_append.1 hb with hb | hb
    · exact List.mem_append_left _ (Operation.mem_blocks_of_mem_inner hb hb')
    · exact List.mem_append_right _ (Block.mem_inner_of_mem_inner hb hb')

theorem Block.mem_ofFills_of_mem_inner {b b' : Block} : ∀ {fills : List (String × List Operation)},
    b ∈ Block.ofFills fills → b' ∈ Block.inner b → b' ∈ Block.ofFills fills
  | (_, body) :: fills, hb, hb' => by
    rcases List.mem_append.1 hb with hb | hb
    · exact List.mem_append_left _ (Block.mem_of_mem_inner hb hb')
    · exact List.mem_append_right _ (Block.mem_ofFills_of_mem_inner hb hb')

end

namespace Block

/-- The frames that are open behind a block, if `n` are open before it. -/
def level? (block : Block) (n : Nat) : Option Nat :=
  block.foldlM Operation.level? n

/-- The block closes the frames it opens, and only those, and defines nothing outside them. -/
def IsBalanced (block : Block) : Prop :=
  block.level? 0 = some 0

instance (block : Block) : Decidable block.IsBalanced :=
  inferInstanceAs (Decidable (block.level? 0 = some 0))

/-- Balanced wherever it stands, with all blocks inside. -/
structure IsClosed (ops : List Operation) : Prop where
  level : ∀ n, level? ops n = some n
  inner : ∀ block ∈ inner ops, IsBalanced block

/-- A block and those inside are balanced. -/
def AllBalanced (block : Block) : Prop :=
  ∀ b ∈ block :: inner block, b.IsBalanced

variable {xs ys block : List Operation} {op : Operation}

@[simp] theorem level?_nil (n : Nat) : level? [] n = some n := rfl

theorem level?_cons (n : Nat) : level? (op :: xs) n = (op.level? n).bind (level? xs) := by
  rw [level?, List.foldlM_cons]
  rfl

theorem level?_append (n : Nat) : level? (xs ++ ys) n = (level? xs n).bind (level? ys) := by
  rw [level?, List.foldlM_append]
  rfl

theorem inner_append : inner (xs ++ ys) = inner xs ++ inner ys := by
  induction xs with
  | nil => rfl
  | cons op xs ih => rw [List.cons_append, inner, inner, ih, List.append_assoc]

/-! ### Texts do not count -/

/-- The operations of a block besides its texts. -/
def withoutTexts (ops : List Operation) : List Operation :=
  ops.filter fun op => match op with
    | .literal _ => false
    | _ => true

theorem withoutTexts_append : withoutTexts (xs ++ ys) = withoutTexts xs ++ withoutTexts ys :=
  List.filter_append ..

theorem withoutTexts_push (op : Operation) :
    withoutTexts (push block op).reverse = withoutTexts block.reverse ++ withoutTexts [op] := by
  unfold push
  split
  · simp [withoutTexts, List.filter_append]
  · split <;> simp [withoutTexts, List.filter_append]
  · simp [withoutTexts, List.filter_append]

theorem withoutTexts_ofOperations (ops : List Operation) :
    withoutTexts (ofOperations ops) = withoutTexts ops := by
  have h : ∀ (ops : List Operation) (block : Block),
      withoutTexts (ops.foldl push block).reverse = withoutTexts block.reverse ++ withoutTexts ops := by
    intro ops
    induction ops with
    | nil => exact fun block => (List.append_nil _).symm
    | cons op ops ih =>
      intro block
      rw [List.foldl_cons, ih, withoutTexts_push, List.append_assoc, ← withoutTexts_append,
        List.singleton_append]
  rw [ofOperations, h]
  rfl

theorem level?_withoutTexts (n : Nat) : level? (withoutTexts xs) n = level? xs n := by
  induction xs generalizing n with
  | nil => rfl
  | cons op xs ih =>
    cases op with
    | literal s => exact ih n
    | _ =>
      show level? (_ :: withoutTexts xs) n = _
      rw [level?_cons, level?_cons]
      congr 1
      exact funext ih

theorem inner_withoutTexts : inner (withoutTexts xs) = inner xs := by
  induction xs with
  | nil => rfl
  | cons op xs ih =>
    cases op with
    | literal s => exact ih
    | _ => exact congrArg (_ ++ ·) ih

theorem inner_ofOperations (ops : List Operation) : inner (ofOperations ops) = inner ops := by
  rw [← inner_withoutTexts, withoutTexts_ofOperations, inner_withoutTexts]

/-- Joining texts adds no operation but texts. -/
theorem mem_of_mem_ofOperations (h : op ∈ ofOperations xs) : (∃ s, op = .literal s) ∨ op ∈ xs := by
  by_cases ht : ∃ s, op = .literal s
  · exact .inl ht
  · have hmem : op ∈ withoutTexts (ofOperations xs) := by
      refine List.mem_filter.2 ⟨h, ?_⟩
      cases op with
      | literal s => exact absurd ⟨s, rfl⟩ ht
      | _ => rfl
    rw [withoutTexts_ofOperations] at hmem
    exact .inr (List.mem_filter.1 hmem).1

/-! ### Closed blocks -/

namespace IsClosed

theorem of_withoutTexts (h : withoutTexts xs = withoutTexts ys) (hx : IsClosed xs) : IsClosed ys where
  level n := by rw [← level?_withoutTexts, ← h, level?_withoutTexts, hx.level]
  inner b hb := hx.inner b (by rwa [← inner_withoutTexts, h, inner_withoutTexts])

theorem allBalanced (h : IsClosed block) : AllBalanced block := fun b hb => by
  rcases List.mem_cons.1 hb with rfl | hb
  · exact h.level 0
  · exact h.inner b hb

theorem nil : IsClosed [] := ⟨fun _ => rfl, fun _ h => by cases h⟩

theorem append (hx : IsClosed xs) (hy : IsClosed ys) : IsClosed (xs ++ ys) where
  level n := by rw [level?_append, hx.level, Option.bind_some, hy.level]
  inner b hb := by
    rw [inner_append] at hb
    exact (List.mem_append.1 hb).elim (hx.inner b) (hy.inner b)

theorem single (hl : ∀ n, op.level? n = some n) (hb : ∀ b ∈ op.blocks, b.IsBalanced) :
    IsClosed [op] where
  level n := by rw [level?_cons, hl, Option.bind_some, level?_nil]
  inner b h := hb b (by simpa [Block.inner] using h)

theorem literal (s : String) : IsClosed [.literal s] :=
  single (fun _ => rfl) fun _ h => by cases h

theorem ofOperations (h : IsClosed xs) : IsClosed (Block.ofOperations xs) :=
  of_withoutTexts (withoutTexts_ofOperations xs).symm h

theorem inScope (ds : List Directive.Definition) (h : IsClosed block) :
    IsClosed (DirectiveSet.inScope ds block) := by
  have hd : ∀ (ds : List Directive.Definition) (n : Nat),
      level? (ds.map fun d => .define d.kind d.name d.value) (n + 1) = some (n + 1) := by
    intro ds n
    induction ds with
    | nil => rfl
    | cons d ds ih => rw [List.map_cons, level?_cons]; exact ih
  have hi : ∀ ds : List Directive.Definition,
      Block.inner (ds.map fun d => .define d.kind d.name d.value) = [] := by
    intro ds
    induction ds with
    | nil => rfl
    | cons d ds ih => exact ih
  constructor
  · intro n
    rw [DirectiveSet.inScope, level?_append, level?_append, level?_cons]
    simp only [Operation.level?, Option.bind_some, hd, h.level, level?_cons]
    simp
  · intro b hb
    rw [DirectiveSet.inScope, inner_append, inner_append] at hb
    simp only [Block.inner, Operation.blocks, hi, List.append_nil, List.nil_append] at hb
    exact h.inner b hb

end IsClosed

/-! ### Compiled blocks -/

theorem isBalanced_of_mem_ofFills {fills : List (String × Block)}
    (h : ∀ fill ∈ fills, AllBalanced fill.2) : ∀ b ∈ ofFills fills, IsBalanced b := by
  induction fills with
  | nil => intro b hb; cases hb
  | cons fill fills ih =>
    intro b hb
    rcases List.mem_append.1 hb with hb | hb
    · exact h fill (by simp) b hb
    · exact ih (fun fill hf => h fill (by simp [hf])) b hb

end Block

/-- Whatever is built from a tree is closed; nothing is said of what fails. -/
theorem BuildContext.keeps_closed (build : BuildContext) :
    build.Keeps (fun _ => True) Block.IsClosed Block.IsClosed (fun _ => True) where
  nil := .nil
  literal := .literal
  append := .append
  operations h := h
  join := .ofOperations
  around {op block} hop _ hb := by
    cases op <;> cases hop <;> exact .single (fun _ => rfl) hb.allBalanced
  inScope := .inScope _
  inPlace _ _ _ _ := .single (fun _ => rfl) fun b hb => by cases hb
  call _ _ _ hf := .single (fun _ => rfl)
    (Block.isBalanced_of_mem_ofFills fun fill hm => (hf fill hm).allBalanced)
  compile _ _ := trivial
  macros _ _ _ := trivial
  unregistered _ _ _ _ := trivial

namespace Program

/-- All blocks of a program, at any depth: those of the main template and those of its macros. -/
def blocks (program : Program) : List Block :=
  (program.body :: program.macros.map Macro.body).flatMap fun body => body :: Block.inner body

/-- The operation stands in a block of the program. -/
def Contains (program : Program) (op : Operation) : Prop :=
  ∃ b ∈ program.blocks, op ∈ b

theorem mem_blocks {program : Program} {b b' : Block} (hb : b ∈ program.blocks)
    (h : b' ∈ b :: Block.inner b) : b' ∈ program.blocks := by
  obtain ⟨body, hbody, hb⟩ := List.mem_flatMap.1 hb
  refine List.mem_flatMap.2 ⟨body, hbody, ?_⟩
  rcases List.mem_cons.1 h with rfl | h
  · exact hb
  · exact Block.mem_of_mem_inner hb h

/-- Every block of a compiled program is balanced. -/
theorem isBalanced_of_compile {provider : ResourceProvider} {mode : TemplateMode}
    {source : TemplateSource} {program : Program} (h : compile provider mode source = .ok program) :
    ∀ b ∈ program.blocks, b.IsBalanced := by
  suffices hc : Block.IsClosed program.body ∧ ∀ m ∈ program.macros, Block.IsClosed m.body by
    intro b hb
    obtain ⟨body, hbody, hb⟩ := List.mem_flatMap.1 hb
    rcases List.mem_cons.1 hbody with rfl | hbody
    · exact hc.1.allBalanced b hb
    · obtain ⟨m, hm, rfl⟩ := List.mem_map.1 hbody
      exact (hc.2 m hm).allBalanced b hb
  rcases compile_cases h with ⟨-, rfl⟩ | ⟨-, document, -, h⟩
  · refine ⟨?_, fun m hm => by cases hm⟩
    unfold ofText
    split
    · exact .nil
    · exact .literal source.text
  · obtain ⟨r, parameters, -, -, hmacros, hbody, -⟩ := ofDocument_ok h
    refine ⟨((BuildContext.keeps_closed _).nodes fun _ _ => trivial).of_ok hbody, fun m hm => ?_⟩
    obtain ⟨⟨d, declared⟩, -, hb⟩ := mem_of_mapM_ok hmacros hm
    exact (MacroRegistry.build_gives (BuildContext.keeps_closed _) (fun _ _ => trivial) declared).of_ok hb

end Program

end MarkupTemplate
