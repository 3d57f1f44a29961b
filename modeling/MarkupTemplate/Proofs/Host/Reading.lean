import MarkupTemplate.Host.Parser
import MarkupTemplate.Proofs.Value.Handles

/-!
# The literals of host code

No text spells a macro: the literals of host code that is read are numbers, strings, truth values and `None`.
Told along the readers, each of which keeps what the reader of bracketed expressions gives.
-/

namespace MarkupTemplate

namespace HostExpr

mutual

/-- The literals of an expression. -/
def literals : HostExpr → List Value
  | literal v => [v]
  | name _ => []
  | list items => literalsAll items
  | unary _ e => e.literals
  | binary _ l r => l.literals ++ r.literals
  | member e _ => e.literals
  | index e i => e.literals ++ i.literals
  | call _ args => literalsAll args

/-- The literals of expressions. -/
def literalsAll : List HostExpr → List Value
  | [] => []
  | e :: es => e.literals ++ literalsAll es

end

/-- No literal holds a handle. -/
def IsTame (e : HostExpr) : Prop :=
  ∀ v ∈ e.literals, v.handles = []

theorem mem_literalsAll {v : Value} {es : List HostExpr} : v ∈ literalsAll es ↔ ∃ e ∈ es, v ∈ e.literals := by
  induction es with
  | nil => simp [literalsAll]
  | cons e es ih => simp [literalsAll, ih]

namespace IsTame

variable {e l r : HostExpr} {es : List HostExpr}

theorem all (h : ∀ e ∈ es, e.IsTame) : ∀ v ∈ literalsAll es, v.handles = [] := by
  intro v hv
  obtain ⟨e, he, hv⟩ := mem_literalsAll.1 hv
  exact h e he v hv

theorem literal {v : Value} (h : v.handles = []) : IsTame (.literal v) := by
  intro w hw
  rwa [List.mem_singleton.1 hw]

theorem binary (hl : l.IsTame) (hr : r.IsTame) (op : BinaryOp) : IsTame (.binary op l r) :=
  fun v hv => (List.mem_append.1 hv).elim (hl v) (hr v)

theorem index (hl : l.IsTame) (hr : r.IsTame) : IsTame (.index l r) :=
  fun v hv => (List.mem_append.1 hv).elim (hl v) (hr v)

end IsTame

end HostExpr

namespace Host

open HostExpr (IsTame)

/-- What a reader reads has a property. -/
def Reads {α : Type} (P : α → Prop) (reader : Reader α) : Prop :=
  ∀ cs, Gives (fun read => P read.1) (fun _ => True) (reader cs)

/-! ### Operands -/

theorem mem_of_firstOf {α : Type} {table : List (α × (List Char → Option (List Char)))} {cs rest : List Char}
    {a : α} (h : firstOf table cs = some (a, rest)) : a ∈ table.map (·.1) := by
  obtain ⟨entry, he, h⟩ := List.exists_of_findSome?_eq_some h
  obtain ⟨after, -, h⟩ := Option.map_eq_some_iff.1 h
  cases h
  exact List.mem_map_of_mem he

theorem handles_number {cs rest : List Char} {v : Value} (h : number? cs = some (v, rest)) :
    v.handles = [] := by
  unfold number? at h
  dsimp only at h
  split at h
  · cases h
  · split at h
    · split at h <;> obtain ⟨n, -, h⟩ := Option.map_eq_some_iff.1 h <;> cases h <;> rfl
    · obtain ⟨n, -, h⟩ := Option.map_eq_some_iff.1 h
      cases h
      rfl

theorem handles_string {cs rest : List Char} {v : Value} (h : string? cs = some (v, rest)) :
    v.handles = [] := by
  unfold string? at h
  split at h
  · obtain ⟨split, -, h⟩ := Option.map_eq_some_iff.1 h
    cases h
    rfl
  · obtain ⟨split, -, h⟩ := Option.map_eq_some_iff.1 h
    cases h
    rfl
  · cases h

theorem handles_constant {cs rest : List Char} {v : Value} (h : constant? cs = some (v, rest)) :
    v.handles = [] := by
  have hv := mem_of_firstOf h
  simp only [List.map_cons, List.map_nil, List.mem_cons, List.not_mem_nil, or_false] at hv
  rcases hv with rfl | rfl | rfl | rfl | rfl | rfl <;> rfl

section Readers

variable {α : Type} {P : α → Prop} {item : Reader α}

theorem moreItems_reads (h : Reads P item) : Reads (fun as => ∀ a ∈ as, P a) (moreItems item) := by
  intro cs
  fun_induction moreItems item cs with
  | case1 => exact .ok (List.forall_mem_nil _)
  | case2 => exact .error trivial
  | case3 => exact .ok (List.forall_mem_nil _)
  | case4 cs next hs a rest ha hlt ih =>
    have hitem := (h next).of_ok ha
    refine ih.bind fun more _ ho => .ok fun b hb => ?_
    rcases List.mem_cons.1 hb with rfl | hb
    · exact hitem
    · exact ho b hb
  | case5 => exact .ok (List.forall_mem_nil _)

theorem itemsOf_reads (h : Reads P item) : Reads (fun as => ∀ a ∈ as, P a) (itemsOf item) := by
  intro cs
  unfold itemsOf
  split
  · split
    · exact .error trivial
    · exact .ok (List.forall_mem_nil _)
  · next a rest ha =>
    have hitem := (h cs).of_ok ha
    refine (moreItems_reads h rest).bind fun more _ ho => .ok fun b hb => ?_
    rcases List.mem_cons.1 hb with rfl | hb
    · exact hitem
    · exact ho b hb

theorem closed_gives (h : Reads P item) (close : String) (cs : List Char) :
    Gives (fun read? => ∀ read, read? = some read → P read.1) (fun _ => True) (closed? item close cs) := by
  unfold closed?
  split
  · split
    · exact .error trivial
    · exact .ok (by simp)
  · next a rest ha =>
    have hitem := (h cs).of_ok ha
    refine .ok fun read hr => ?_
    obtain ⟨after, -, rfl⟩ := Option.map_eq_some_iff.1 hr
    exact hitem

end Readers

variable {nested : Reader HostExpr}

theorem bracketed_gives (h : Reads IsTame nested) (cs : List Char) :
    Gives (fun read? => ∀ read, read? = some read → read.1.IsTame) (fun _ => True)
      (bracketed? nested cs) := by
  unfold bracketed?
  split
  · refine (closed_gives (itemsOf_reads h) "]" _).bind fun items? _ hi => .ok fun read hr => ?_
    obtain ⟨⟨items, rest⟩, hitems, rfl⟩ := Option.map_eq_some_iff.1 hr
    exact IsTame.all (hi _ hitems)
  · exact closed_gives h ")" _
  · exact .ok (by simp)

theorem primary_reads (h : Reads IsTame nested) : Reads IsTame (primary nested) := by
  intro cs
  unfold primary
  split
  · next v rest hv =>
    refine .ok (IsTame.literal ?_)
    rcases Option.or_eq_some_iff.1 hv with hv | ⟨-, hv⟩
    · rcases Option.or_eq_some_iff.1 hv with hv | ⟨-, hv⟩
      · exact handles_number hv
      · exact handles_string hv
    · exact handles_constant hv
  · refine (bracketed_gives h cs).bind fun read? _ hr => ?_
    split
    · exact .ok (hr _ rfl)
    · cases name cs with
      | ok read => exact .ok (List.forall_mem_nil _)
      | error problem => exact .error trivial

/-- What follows an operand holds tame expressions. -/
def Suffix.IsTame : Suffix → Prop
  | .member _ => True
  | .index i => i.IsTame
  | .call args => ∀ e ∈ args, e.IsTame

theorem suffix_gives (h : Reads IsTame nested) (cs : List Char) :
    Gives (fun read? => ∀ read, read? = some read → read.1.IsTame) (fun _ => True) (suffix? nested cs) := by
  unfold suffix?
  split
  · refine .ok fun read hr => ?_
    cases hr
    trivial
  · split
    · refine (closed_gives h "]" _).bind fun i? _ hi => .ok fun read hr => ?_
      obtain ⟨⟨i, rest⟩, hi?, rfl⟩ := Option.map_eq_some_iff.1 hr
      exact hi _ hi?
    · split
      · refine (closed_gives (itemsOf_reads h) ")" _).bind fun args? _ ha => .ok fun read hr => ?_
        obtain ⟨⟨args, rest⟩, ha?, rfl⟩ := Option.map_eq_some_iff.1 hr
        exact ha _ ha?
      · exact .ok (by simp)

theorem applySuffix_gives {cs : List Char} {e : HostExpr} {s : Suffix} (he : e.IsTame) (hs : s.IsTame) :
    Gives IsTame (fun _ => True) (applySuffix cs e s) := by
  cases s with
  | member n => exact .ok he
  | index i => exact .ok (he.index hs)
  | call args =>
    cases e with
    | name f => exact .ok (IsTame.all hs)
    | member target f =>
      refine .ok (IsTame.all fun e hm => ?_)
      rcases List.mem_cons.1 hm with rfl | hm
      · exact he
      · exact hs e hm
    | _ => exact .error trivial

theorem suffixes_gives (h : Reads IsTame nested) {e : HostExpr} (he : e.IsTame) (cs : List Char) :
    Gives (fun read => read.1.IsTame) (fun _ => True) (suffixes nested e cs) := by
  induction hn : cs.length using Nat.strongRecOn generalizing e cs with
  | ind n ih =>
    subst hn
    rw [suffixes]
    refine (suffix_gives h cs).bind fun s? _ hs => ?_
    split
    · exact .ok he
    · next s rest _ =>
      refine (applySuffix_gives he (hs _ rfl)).bind fun e _ he => ?_
      split
      · next hlt => exact ih _ hlt he rest rfl
      · exact .ok he

theorem postfixed_reads (h : Reads IsTame nested) : Reads IsTame (postfixed nested) := by
  intro cs
  unfold postfixed
  exact (primary_reads h _).bind fun ⟨e, rest⟩ _ he => suffixes_gives h he _

theorem negated_reads (h : Reads IsTame nested) : Reads IsTame (negated nested) := by
  intro cs
  fun_induction negated nested cs with
  | case1 => exact postfixed_reads h _
  | case2 cs rest hs hlt e after he ih =>
    have htame := ih.of_ok he
    exact .ok htame
  | case3 => exact .error trivial
  | case4 => exact postfixed_reads h _
  | case5 => exact postfixed_reads h _

/-! ### Operators -/

section Operators

variable {operand : Reader HostExpr} {op? : List Char → Option (BinaryOp × List Char)}

theorem moreOperands_gives (h : Reads IsTame operand) {e : HostExpr} (he : e.IsTame) (cs : List Char) :
    Gives (fun read => read.1.IsTame) (fun _ => True) (moreOperands operand op? e cs) := by
  induction hn : cs.length using Nat.strongRecOn generalizing e cs with
  | ind n ih =>
    subst hn
    rw [moreOperands]
    split
    · exact .ok he
    · next op rest _ =>
      refine (h rest).bind fun read _ hr => ?_
      dsimp only
      split
      · next hlt => exact ih _ hlt (he.binary hr op) read.2 rfl
      · exact .ok (he.binary hr op)

theorem leftGrouped_reads (h : Reads IsTame operand) : Reads IsTame (leftGrouped operand op?) := by
  intro cs
  unfold leftGrouped
  exact (h cs).bind fun ⟨e, rest⟩ _ he => moreOperands_gives h he rest

end Operators

theorem comparison_reads (h : Reads IsTame nested) : Reads IsTame (comparison nested) := by
  have hsum : Reads IsTame (sum nested) := leftGrouped_reads (leftGrouped_reads (negated_reads h))
  intro cs
  unfold comparison
  refine (hsum cs).bind fun ⟨left, rest⟩ _ hl => ?_
  dsimp only
  split
  · exact .ok hl
  · next op rest _ => exact (hsum rest).bind fun ⟨right, rest⟩ _ hr => .ok (hl.binary hr op)

theorem notLevel_reads (h : Reads IsTame nested) : Reads IsTame (notLevel nested) := by
  intro cs
  fun_induction notLevel nested cs with
  | case1 => exact comparison_reads h _
  | case2 cs rest hs hlt e after he ih =>
    have htame := ih.of_ok he
    exact .ok htame
  | case3 => exact .error trivial
  | case4 => exact comparison_reads h _
  | case5 => exact comparison_reads h _

theorem expression_reads : ∀ depth, Reads IsTame (expression depth)
  | 0 => fun _ => .error trivial
  | depth + 1 => leftGrouped_reads (leftGrouped_reads (notLevel_reads (expression_reads depth)))

/-- No literal of host code that is read holds a handle. -/
theorem isTame_of_parse {code : String} {e : HostExpr} (h : parse code = .ok e) : e.IsTame := by
  have hchars : Gives IsTame (fun _ => True) (parseChars code.toList) := by
    unfold parseChars
    refine (expression_reads _ _).bind fun ⟨e, rest⟩ _ he => ?_
    dsimp only
    split
    · exact .ok he
    · exact .error trivial
  unfold parse at h
  split at h
  · next e' he =>
    cases h
    exact hchars.of_ok he
  · cases h

end Host

end MarkupTemplate
