import Mathlib.Order.Basic
import MarkupTemplate.Proofs.Host.Tokens

/-!
# The levels of host code

Every level has its reader and goes on with the tokens of its operators (`Level.operator?_read`); any other token
ends it (`Level.operator?_eq_none`). What an expression of a level can begin with (`Begins`) tells the operators in
front of it from those that are longer.
-/

namespace MarkupTemplate

namespace Host

/-- The levels of host code, tightest first. -/
inductive Level where
  | operand
  | negated
  | product
  | sum
  | comparison
  | not
  | and
  | or
  deriving DecidableEq

namespace Level

/-- The number of tighter levels. -/
def rank : Level → Nat
  | operand => 0
  | negated => 1
  | product => 2
  | sum => 3
  | comparison => 4
  | not => 5
  | and => 6
  | or => 7

theorem rank_injective : Function.Injective rank := by
  intro L M h
  cases L <;> cases M <;> first | rfl | cases h

instance : LE Level :=
  ⟨fun L M => L.rank ≤ M.rank⟩

instance : LT Level :=
  ⟨fun L M => L.rank < M.rank⟩

instance : LinearOrder Level :=
  LinearOrder.lift' rank rank_injective

theorem operand_le (L : Level) : operand ≤ L :=
  Nat.zero_le L.rank

theorem le_or (L : Level) : L ≤ or := by
  cases L <;> decide

/-- The next looser level. -/
def next : Level → Level
  | operand => negated
  | negated => product
  | product => sum
  | sum => comparison
  | comparison => not
  | not => and
  | and => or
  | or => or

theorem rank_next {L M : Level} (h : L < M) : L.next.rank = L.rank + 1 := by
  revert h
  cases L <;> cases M <;> decide

/-- The operator of a level at the front of a text. -/
def operator? : Level → List Char → Option (BinaryOp × List Char)
  | product => productOp?
  | sum => sumOp?
  | comparison => comparisonOp?
  | and => andOp?
  | or => orOp?
  | operand | negated | not => fun _ => none

end Level

end Host

open Host (Level Lexeme)

/-- The level of the expressions that an operator makes. -/
def BinaryOp.level : BinaryOp → Level
  | mul | div | floorDiv | mod => .product
  | add | sub => .sum
  | eq | ne | lt | le | gt | ge | isIn | isNotIn => .comparison
  | and => .and
  | or => .or

/-- How an operator is written. -/
def BinaryOp.tokens : BinaryOp → List Lexeme
  | add => [.sign "+"]
  | sub => [.sign "-"]
  | mul => [.sign "*"]
  | div => [.sign "/"]
  | floorDiv => [.sign "//"]
  | mod => [.sign "%"]
  | eq => [.sign "=="]
  | ne => [.sign "!="]
  | lt => [.sign "<"]
  | le => [.sign "<="]
  | gt => [.sign ">"]
  | ge => [.sign ">="]
  | isIn => [.word "in"]
  | isNotIn => [.word "not", .word "in"]
  | and => [.word "and"]
  | or => [.word "or"]

/-- How an operator is written. -/
def UnaryOp.token : UnaryOp → Lexeme
  | neg => .sign "-"
  | not => .word "not"

/-- The level of the expressions that an operator makes. -/
def UnaryOp.level : UnaryOp → Level
  | neg => .negated
  | not => .not

namespace Host

open Text Lexeme

namespace Lexeme

/-- The level whose expressions go on with a token. -/
def level? : Lexeme → Option Level
  | sign s =>
    if s ∈ [".", "[", "("] then some .operand
    else if s ∈ ["*", "/", "//", "%"] then some .product
    else if s ∈ ["+", "-"] then some .sum
    else if s ∈ ["==", "!=", "<=", ">=", "<", ">"] then some .comparison
    else none
  | word w =>
    if w ∈ ["not", "in"] then some .comparison
    else if w = "and" then some .and
    else if w = "or" then some .or
    else none
  | number _ | quoted _ _ => none

/-- The tightest level with expressions that begin with a token. -/
def begins? : Lexeme → Option Level
  | sign s =>
    if s ∈ ["[", "("] then some .operand
    else if s = "-" then some .negated
    else none
  | word w =>
    if w ∈ ["in", "and", "or"] then none
    else if w = "not" then some .not
    else some .operand
  | number _ | quoted _ _ => some .operand

end Lexeme

/-- An expression of the level can begin with the first of the tokens. -/
def Begins (L : Level) (ts : List Lexeme) : Prop :=
  ∃ t ∈ ts.head?, ∃ M ∈ t.begins?, M ≤ L

/-- No expression of the level goes on with the first of the tokens. -/
def Ends (L : Level) (ts : List Lexeme) : Prop :=
  ∀ t ∈ ts.head?, ∀ M ∈ t.level?, L < M

/-- The first of the tokens can stand behind an expression of the level: it goes on with a looser one, or with one
of this level that is grouped to the left. -/
def Follows (L : Level) (ts : List Lexeme) : Prop :=
  ∀ t ∈ ts.head?, ∀ M ∈ t.level?, L < M ∨ L = M ∧ L ≠ .comparison

variable {L M : Level} {t : Lexeme} {ts : List Lexeme} {cs rest : List Char} {c : Char} {w s : String}

theorem Begins.forall_head (h : Begins L ts) : ∀ t ∈ ts.head?, ∃ M ∈ t.begins?, M ≤ L := by
  obtain ⟨t, ht, hM⟩ := h
  intro u hu
  obtain rfl : t = u := Option.some.inj (ht.symm.trans hu)
  exact hM

theorem Begins.append (h : Begins L ts) (us : List Lexeme) : Begins L (ts ++ us) := by
  obtain ⟨t, ht, hM⟩ := h
  exact ⟨t, by rw [List.head?_append, Option.mem_def.1 ht]; rfl, hM⟩

theorem Begins.mono (h : Begins L ts) (hle : L ≤ M) : Begins M ts := by
  obtain ⟨t, ht, N, hN, hNL⟩ := h
  exact ⟨t, ht, N, hN, hNL.trans hle⟩

theorem Ends.mono (h : Ends M ts) (hle : L ≤ M) : Ends L ts :=
  fun t ht N hN => lt_of_le_of_lt hle (h t ht N hN)

theorem Ends.level?_ne (h : Ends L ts) : ∀ t ∈ ts.head?, t.level? ≠ some L :=
  fun t ht hL => lt_irrefl L (h t ht L hL)

theorem Follows.ends_comparison (h : Follows .comparison ts) : Ends .comparison ts :=
  fun t ht N hN => (h t ht N hN).resolve_right fun hne => hne.2 rfl

theorem Ends.follows (h : Ends L ts) : Follows L ts :=
  fun t ht N hN => .inl (h t ht N hN)

theorem Follows.ends (h : Follows M ts) (hlt : L < M) : Ends L ts := by
  intro t ht N hN
  rcases h t ht N hN with hM | ⟨rfl, -⟩
  · exact hlt.trans hM
  · exact hlt

/-! ### Signs by their first characters -/

/-- Only a sign begins with a character that is neither a quote nor in words. -/
theorem exists_sign (h : Spaced ts cs) (hfront : front ts = some c)
    (hc : Path.isRootChar c = false ∧ c ≠ '\x27' ∧ c ≠ '"') :
    ∃ s ∈ signs, ts.head? = some (.sign s) ∧ s.toList.head? = some c := by
  obtain ⟨t, ht, htc⟩ := Option.bind_eq_some_iff.1 hfront
  obtain ⟨ts, rfl⟩ := List.head?_eq_some_iff.1 ht
  obtain ⟨rest, -, -, hwell, -⟩ := h.cons_inv
  obtain ⟨d, ds, htext, -, hroot⟩ := exists_text hwell
  obtain rfl : d = c := by simpa [htext] using htc
  cases t with
  | word w => cases hroot.symm.trans hc.1
  | number n => cases hroot.symm.trans hc.1
  | quoted quote s =>
    obtain rfl : quote = d := (List.cons.inj htext).1
    rcases hwell.1 with rfl | rfl
    · exact absurd rfl hc.2.1
    · exact absurd rfl hc.2.2
  | sign s => exact ⟨s, hwell, ht, htc⟩

/-- A character with which only signs begin that the first token is not. -/
theorem front_ne {P : Lexeme → Prop} (h : Spaced ts cs) (hP : ∀ t ∈ ts.head?, P t)
    (hc : Path.isRootChar c = false ∧ c ≠ '\x27' ∧ c ≠ '"')
    (hsigns : ∀ s ∈ signs, s.toList.head? = some c → ¬P (.sign s)) : front ts ≠ some c := by
  intro hfront
  obtain ⟨s, hs, hhead, hsc⟩ := exists_sign h hfront hc
  exact hsigns s hs hsc (hP _ hhead)

theorem Begins.front_ne (h : Begins .or ts) (hs : Spaced ts cs) : front ts ≠ some '/' ∧ front ts ≠ some '=' := by
  exact ⟨Host.front_ne hs h.forall_head (by decide +kernel) (by decide),
    Host.front_ne hs h.forall_head (by decide +kernel) (by decide)⟩

/-! ### Operators -/

/-- What comes next at a place is a blank or the first token. -/
theorem head_ne (h : Spaced ts rest) (hspace : isSpace c = false) (hfront : front ts ≠ some c) :
    rest.head? ≠ some c :=
  fun hc => hfront (h.front_eq hc hspace)

section Tables

variable {α : Type} {a : α} {f : List Char → Option (List Char)}
  {table : List (α × (List Char → Option (List Char)))}

theorem firstOf_cons_of_some (h : f cs = some rest) : firstOf ((a, f) :: table) cs = some (a, rest) := by
  simp [firstOf, h]

theorem firstOf_cons_of_none (h : f cs = none) : firstOf ((a, f) :: table) cs = firstOf table cs := by
  simp [firstOf, h]

theorem firstOf_eq_none (h : ∀ entry ∈ table, entry.2 cs = none) : firstOf table cs = none := by
  rw [firstOf, List.findSome?_eq_none_iff]
  intro entry hentry
  rw [h entry hentry]
  rfl

end Tables

/-- A token that does not go on with a level is none of its operators. -/
theorem Level.operator?_eq_none (h : Spaced ts cs) (hlevel : ∀ t ∈ ts.head?, t.level? ≠ some L) :
    L.operator? cs = none := by
  have hsign {c : Char} (hc : Path.isRootChar c = false ∧ c ≠ '\x27' ∧ c ≠ '"')
      (hsigns : ∀ s ∈ signs, s.toList.head? = some c → ¬(sign s).level? ≠ some L) : front ts ≠ some c :=
    Host.front_ne h hlevel hc hsigns
  have hword {w : String} (hw : (word w).level? = some L) : ts.head? ≠ some (.word w) :=
    fun hhead => hlevel _ hhead hw
  cases L with
  | operand | negated | not => rfl
  | product =>
    have hslash : front ts ≠ some '/' := hsign (by decide +kernel) (by decide)
    have hstar : front ts ≠ some '*' := hsign (by decide +kernel) (by decide)
    have hpercent : front ts ≠ some '%' := hsign (by decide +kernel) (by decide)
    refine firstOf_eq_none ?_
    simp only [List.forall_mem_cons, List.not_mem_nil, false_imp_iff, implies_true, and_true]
    exact ⟨sign?_eq_none h rfl hslash, sign?_eq_none h rfl hstar, sign?_eq_none h rfl hslash,
      sign?_eq_none h rfl hpercent⟩
  | sum =>
    have hplus : front ts ≠ some '+' := hsign (by decide +kernel) (by decide)
    have hminus : front ts ≠ some '-' := hsign (by decide +kernel) (by decide)
    refine firstOf_eq_none ?_
    simp only [List.forall_mem_cons, List.not_mem_nil, false_imp_iff, implies_true, and_true]
    exact ⟨sign?_eq_none h rfl hplus, sign?_eq_none h rfl hminus⟩
  | comparison =>
    have hdrop {c : Char} (hfront : front ts ≠ some c) (cs' : List Char) :
        dropStart? (c :: cs') (skipSpace cs) = none :=
      dropStart?_eq_none _ (by rwa [h.head_skipSpace])
    have heq : front ts ≠ some '=' := hsign (by decide +kernel) (by decide)
    have hbang : front ts ≠ some '!' := hsign (by decide +kernel) (by decide)
    have hless : front ts ≠ some '<' := hsign (by decide +kernel) (by decide)
    have hgreater : front ts ≠ some '>' := hsign (by decide +kernel) (by decide)
    have hnot : word? "not" (skipSpace cs) = none :=
      word?_eq_none h (isRoot_of_keyword (by decide)) (hword rfl)
    have hin : word? "in" (skipSpace cs) = none :=
      word?_eq_none h (isRoot_of_keyword (by decide)) (hword rfl)
    refine Option.map_eq_none_iff.2 (firstOf_eq_none ?_)
    simp only [List.forall_mem_cons, List.not_mem_nil, false_imp_iff, implies_true, and_true]
    exact ⟨hdrop heq _, hdrop hbang _, hdrop hless _, hdrop hgreater _, hdrop hless _, hdrop hgreater _,
      by rw [notIn?, hnot]; rfl, hin⟩
  | and =>
    refine firstOf_eq_none ?_
    simp only [List.forall_mem_cons, List.not_mem_nil, false_imp_iff, implies_true, and_true]
    exact spacedWord?_eq_none h (isRoot_of_keyword (by decide)) (hword rfl)
  | or =>
    refine firstOf_eq_none ?_
    simp only [List.forall_mem_cons, List.not_mem_nil, false_imp_iff, implies_true, and_true]
    exact spacedWord?_eq_none h (isRoot_of_keyword (by decide)) (hword rfl)

/-- The comparison operators as `comparisonOp?` tries them. -/
def comparisonTable : List (BinaryOp × (List Char → Option (List Char))) :=
  [(.eq, dropStart? "==".toList), (.ne, dropStart? "!=".toList), (.le, dropStart? "<=".toList),
   (.ge, dropStart? ">=".toList), (.lt, dropStart? "<".toList), (.gt, dropStart? ">".toList),
   (.isNotIn, notIn?), (.isIn, word? "in")]

theorem comparisonOp?_eq {op : BinaryOp} (h : firstOf comparisonTable (skipSpace cs) = some (op, rest)) :
    comparisonOp? cs = some (op, skipSpace rest) :=
  Option.map_eq_some_iff.2 ⟨_, h, rfl⟩

theorem comparisonOp?_sign {op : BinaryOp} (h : Spaced (.sign s :: ts) cs)
    (hfirst : ∀ rest, Spaced ts rest → firstOf comparisonTable (s.toList ++ rest) = some (op, rest)) :
    ∃ rest, comparisonOp? cs = some (op, rest) ∧ Leaves ts cs rest := by
  obtain ⟨rest, hcs, hleaves, -⟩ := h.leaves
  refine ⟨_, comparisonOp?_eq ?_, hleaves.skip⟩
  rw [hcs]
  exact hfirst rest hleaves.spaced

theorem front_tokens (op : BinaryOp) (ts : List Lexeme) : front (op.tokens ++ ts) = front op.tokens := by
  cases op <;> rfl

/-- An operator in front of an expression is read. -/
theorem operator?_read (op : BinaryOp) (h : Spaced (op.tokens ++ ts) cs) (hbegins : Begins .or ts) :
    ∃ rest, op.level.operator? cs = some (op, rest) ∧ Leaves ts cs rest := by
  have hsign {w : String} {c : Char} {cs' : List Char} (hw : w.toList = c :: cs')
      (hc : front op.tokens ≠ some c) : sign? w cs = none :=
    sign?_eq_none h hw (by rwa [front_tokens])
  cases op with
  | add =>
    obtain ⟨rest, hread, hleaves⟩ := sign?_read h
    exact ⟨rest, firstOf_cons_of_some hread, hleaves⟩
  | sub =>
    obtain ⟨rest, hread, hleaves⟩ := sign?_read h
    have hplus : sign? "+" cs = none := hsign rfl (by decide)
    exact ⟨rest, (firstOf_cons_of_none hplus).trans (firstOf_cons_of_some hread), hleaves⟩
  | floorDiv =>
    obtain ⟨rest, hread, hleaves⟩ := sign?_read h
    exact ⟨rest, firstOf_cons_of_some hread, hleaves⟩
  | mul =>
    obtain ⟨rest, hread, hleaves⟩ := sign?_read h
    have hfloor : sign? "//" cs = none := hsign rfl (by decide)
    exact ⟨rest, (firstOf_cons_of_none hfloor).trans (firstOf_cons_of_some hread), hleaves⟩
  | div =>
    obtain ⟨rest, hread, hleaves⟩ := sign?_read h
    have hstar : sign? "*" cs = none := hsign rfl (by decide)
    have hfloor : sign? "//" cs = none := by
      -- the sign begins like this one, and what follows it does not go on with it
      obtain ⟨after, hcs, hleaves, -⟩ := h.leaves
      have hslash := head_ne hleaves.spaced (by decide) (hbegins.front_ne hleaves.spaced).1
      rw [sign?, hcs]
      exact congrArg (Option.map skipSpace) (dropStart?_eq_none [] hslash)
    exact ⟨rest, (firstOf_cons_of_none hfloor).trans
      ((firstOf_cons_of_none hstar).trans (firstOf_cons_of_some hread)), hleaves⟩
  | mod =>
    obtain ⟨rest, hread, hleaves⟩ := sign?_read h
    have hfloor : sign? "//" cs = none := hsign rfl (by decide)
    have hstar : sign? "*" cs = none := hsign rfl (by decide)
    have hslash : sign? "/" cs = none := hsign rfl (by decide)
    exact ⟨rest, (firstOf_cons_of_none hfloor).trans ((firstOf_cons_of_none hstar).trans
      ((firstOf_cons_of_none hslash).trans (firstOf_cons_of_some hread))), hleaves⟩
  | eq => exact comparisonOp?_sign h fun rest _ => rfl
  | ne => exact comparisonOp?_sign h fun rest _ => rfl
  | le => exact comparisonOp?_sign h fun rest _ => rfl
  | ge => exact comparisonOp?_sign h fun rest _ => rfl
  | lt =>
    refine comparisonOp?_sign h fun rest hrest => ?_
    have hlonger : dropStart? ['='] rest = none :=
      dropStart?_eq_none [] (head_ne hrest (by decide) (hbegins.front_ne hrest).2)
    have hle : dropStart? "<=".toList ("<".toList ++ rest) = none := hlonger
    rw [comparisonTable, firstOf_cons_of_none rfl, firstOf_cons_of_none rfl, firstOf_cons_of_none hle,
      firstOf_cons_of_none rfl, firstOf_cons_of_some (dropStart?_append _ rest)]
  | gt =>
    refine comparisonOp?_sign h fun rest hrest => ?_
    have hlonger : dropStart? ['='] rest = none :=
      dropStart?_eq_none [] (head_ne hrest (by decide) (hbegins.front_ne hrest).2)
    have hge : dropStart? ">=".toList (">".toList ++ rest) = none := hlonger
    rw [comparisonTable, firstOf_cons_of_none rfl, firstOf_cons_of_none rfl, firstOf_cons_of_none rfl,
      firstOf_cons_of_none hge, firstOf_cons_of_none rfl, firstOf_cons_of_some (dropStart?_append _ rest)]
  | isIn =>
    obtain ⟨rest, hin, hleaves, -⟩ := word?_read h
    obtain ⟨_, hcs, -⟩ := h.leaves
    refine ⟨_, comparisonOp?_eq ?_, hleaves.skip⟩
    rw [hcs] at hin ⊢
    rw [comparisonTable, firstOf_cons_of_none rfl, firstOf_cons_of_none rfl, firstOf_cons_of_none rfl,
      firstOf_cons_of_none rfl, firstOf_cons_of_none rfl, firstOf_cons_of_none rfl, firstOf_cons_of_none rfl,
      firstOf_cons_of_some hin]
  | isNotIn =>
    obtain ⟨rest, hnot, hleaves, hapart⟩ := word?_read h
    obtain ⟨after, hin, hmore, -⟩ := word?_read hleaves.spaced
    obtain ⟨_, hcs, -⟩ := h.leaves
    have hnotIn : notIn? (skipSpace cs) = some after := by
      rw [notIn?, hnot, Option.bind_some, if_pos (hapart rfl), hin]
    refine ⟨_, comparisonOp?_eq ?_, (hmore.trans hleaves).skip⟩
    rw [hcs] at hnotIn ⊢
    rw [comparisonTable, firstOf_cons_of_none rfl, firstOf_cons_of_none rfl, firstOf_cons_of_none rfl,
      firstOf_cons_of_none rfl, firstOf_cons_of_none rfl, firstOf_cons_of_none rfl, firstOf_cons_of_some hnotIn]
  | and =>
    obtain ⟨rest, hread, hleaves⟩ := spacedWord?_read h
    exact ⟨rest, firstOf_cons_of_some hread, hleaves⟩
  | or =>
    obtain ⟨rest, hread, hleaves⟩ := spacedWord?_read h
    exact ⟨rest, firstOf_cons_of_some hread, hleaves⟩

end Host

end MarkupTemplate
