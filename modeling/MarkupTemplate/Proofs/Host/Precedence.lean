import Mathlib.Data.List.Induction
import MarkupTemplate.Proofs.Host.Written

/-!
# Chains of names with operators between them

A chain without brackets stands for the expression whose operators have looser ones above them, and equal ones to the
left below them (`Grouped`). With at most one comparison between two boolean operators (`ComparedOnce`) there is just
one such expression: the next operator goes as far down the right side as it is tighter (`Grouped.insert`). The chain
is read as it (`parse_exact`).
-/

namespace MarkupTemplate.Host

open HostExpr (IsWritable Written)

/-- The operators of a chain of names and what stands behind each. -/
abbrev Chain := List (BinaryOp × String)

/-- The tokens of a chain. -/
def chainTokens (n : String) (chain : Chain) : List Lexeme :=
  .word n :: chain.flatMap fun link => link.1.tokens ++ [.word link.2]

/-- The expression has the names and operators of the chain in their order, grouped by precedence: no operator stands
above a looser one, and the operators at the top of the right operand are tighter. The left operand may have an
operator of the same level at its top, unless that is a comparison. -/
inductive Grouped : HostExpr → String → Chain → Prop
  | name (n : String) : Grouped (.name n) n []
  | binary {op : BinaryOp} {l r : HostExpr} {n m : String} {before after : Chain} (hl : Grouped l n before)
      (hr : Grouped r m after) (hleft : l.level < op.level ∨ l.level = op.level ∧ op.level ≠ .comparison)
      (hright : r.level < op.level) : Grouped (.binary op l r) n (before ++ (op, m) :: after)

/-- Between two comparisons stands a boolean operator. -/
def ComparedOnce (ops : List BinaryOp) : Prop :=
  ∀ before between after c d, ops = before ++ c :: (between ++ d :: after) → c.level = .comparison →
    d.level = .comparison → ∃ op ∈ between, op.level = .and ∨ op.level = .or

variable {e e' : HostExpr} {n m : String} {chain before after : Chain} {op : BinaryOp} {ops : List BinaryOp}

theorem ComparedOnce.part {more : List BinaryOp} (h : ComparedOnce more) (hops : ops <:+: more) : ComparedOnce ops := by
  obtain ⟨front, behind, rfl⟩ := hops
  rintro before between after c d rfl hc hd
  exact h (front ++ before) between (after ++ behind) c d (by simp) hc hd

theorem ComparedOnce.of_countP (h : (ops.countP fun op => op.level = .comparison) ≤ 1) : ComparedOnce ops := by
  rintro before between after c d rfl hc hd
  simp only [List.countP_append, List.countP_cons, hc, hd, decide_true, if_true] at h
  omega

/-- All operators of a chain are at most as loose as the one at the top. -/
theorem Grouped.level_le (h : Grouped e n chain) : ∀ link ∈ chain, link.1.level ≤ e.level := by
  induction h with
  | name n => simp
  | @binary op l r n m before after hl hr hleft hright ihl ihr =>
    have hle : l.level ≤ op.level := hleft.elim le_of_lt fun heq => heq.1.le
    rw [List.forall_mem_append, List.forall_mem_cons]
    exact ⟨fun link hlink => (ihl link hlink).trans hle, le_rfl, fun link hlink => (ihr link hlink).trans hright.le⟩

theorem level_name_lt (n : String) (op : BinaryOp) : (HostExpr.name n).level < op.level :=
  show Level.operand < op.level by cases op <;> decide

/-- One more operator and name behind a chain: the operator goes to where the ones above it on the right side are
looser, and takes what stands there as its left operand. -/
theorem Grouped.insert (h : Grouped e n chain) (hcompared : ComparedOnce ((chain ++ [(op, m)]).map (·.1))) :
    ∃ e', Grouped e' n (chain ++ [(op, m)]) ∧ (e'.level = e.level ∨ e'.level = op.level) := by
  induction h with
  | name n =>
    exact ⟨_, .binary (.name n) (.name m) (.inl (level_name_lt n op)) (level_name_lt m op), .inr rfl⟩
  | @binary top l r n k before after hl hr hleft hright _ ihr =>
    have hwhole : Grouped (.binary top l r) n (before ++ (top, k) :: after) := .binary hl hr hleft hright
    rcases lt_or_ge op.level top.level with hlt | hge
    · have hpart : (after ++ [(op, m)]).map (·.1) <:+: ((before ++ (top, k) :: after) ++ [(op, m)]).map (·.1) :=
        ⟨before.map (·.1) ++ [top], [], by simp⟩
      obtain ⟨r', hr', hlevel⟩ := ihr (hcompared.part hpart)
      have hright' : r'.level < top.level := by
        rcases hlevel with heq | heq
        · rwa [heq]
        · rwa [heq]
      refine ⟨.binary top l r', ?_, .inl rfl⟩
      have := Grouped.binary hl hr' hleft hright'
      simpa using this
    · refine ⟨.binary op (.binary top l r) (.name m), .binary hwhole (.name m) ?_ (level_name_lt m op),
        .inr rfl⟩
      rcases lt_or_eq_of_le hge with hlt | heq
      · exact .inl hlt
      · refine .inr ⟨heq, fun hop => ?_⟩
        -- all that stands between the two comparisons is tighter than they are
        obtain ⟨bool, hmem, hbool⟩ :=
          hcompared (before.map (·.1)) (after.map (·.1)) [] top op (by simp) (heq.trans hop) hop
        obtain ⟨link, hlink, rfl⟩ := List.mem_map.1 hmem
        have hlt := lt_of_le_of_lt (hr.level_le link hlink) hright
        rw [heq, hop] at hlt
        rcases hbool with hbool | hbool <;> rw [hbool] at hlt <;> exact absurd hlt (by decide)

theorem exists_grouped (n : String) (h : ComparedOnce (chain.map (·.1))) : ∃ e, Grouped e n chain := by
  induction chain using List.reverseRecOn with
  | nil => exact ⟨_, .name n⟩
  | append_singleton chain link ih =>
    have hpart : chain.map (·.1) <:+: (chain ++ [link]).map (·.1) := ⟨[], [link.1], by simp⟩
    obtain ⟨e, he⟩ := ih (h.part hpart)
    obtain ⟨e', he', -⟩ := he.insert h
    exact ⟨e', he'⟩

theorem chainTokens_append (n : String) (before : Chain) (op : BinaryOp) (m : String) (after : Chain) :
    chainTokens n (before ++ (op, m) :: after) = chainTokens n before ++ (op.tokens ++ chainTokens m after) := by
  simp [chainTokens]

/-- A grouped chain is of the grammar without any brackets. -/
theorem Grouped.writes (h : Grouped e n chain) (hn : IsName n) (hchain : ∀ link ∈ chain, IsName link.2) :
    Writes e.level e (chainTokens n chain) := by
  induction h with
  | name n => exact .name hn
  | @binary op l r n m before after hl hr hleft hright ihl ihr =>
    rw [List.forall_mem_append, List.forall_mem_cons] at hchain
    obtain ⟨hbefore, hm, hafter⟩ := hchain
    have hlevel : l.level ≤ leftLevel op := by
      unfold leftLevel
      split
      · next hop =>
        rw [hop] at hleft
        exact Level.le_tighter (hleft.resolve_right fun h => h.2 rfl)
      · exact hleft.elim le_of_lt fun h => h.1.le
    rw [chainTokens_append]
    exact .binary op ((ihl hn hbefore).loosen hlevel) ((ihr hm hafter).loosen (Level.le_tighter hright))

/-- Host code that is written out with brackets, or as a chain of names without any, is read as the expression that it
writes. The chain has one grouping. -/
theorem parse_complete :
    (∀ e, IsWritable e → (∃ ts, ∃ code : String, Written e ts ∧ Spaced ts code.toList) ∧
      ∀ ts (code : String), Written e ts → Spaced ts code.toList → parse code = .ok e) ∧
    (∀ n chain, IsName n → (∀ link ∈ chain, IsName link.2) → ComparedOnce (chain.map (·.1)) →
      ∃ e, Grouped e n chain ∧ (∀ e', Grouped e' n chain → e' = e) ∧
        ∀ code : String, Spaced (chainTokens n chain) code.toList → parse code = .ok e) := by
  constructor
  · intro e he
    obtain ⟨ts, hts⟩ := exists_written he
    obtain ⟨code, hcode⟩ := (writes_of_written hts he).exists_code
    exact ⟨⟨ts, code, hts, hcode⟩, fun ts code hts => parse_of_written hts he⟩
  · intro n chain hn hchain hcompared
    obtain ⟨e, he⟩ := exists_grouped n hcompared
    have hparse (e : HostExpr) (he : Grouped e n chain) (code : String)
        (hcode : Spaced (chainTokens n chain) code.toList) : parse code = .ok e :=
      parse_writes ((he.writes hn hchain).loosen (Level.le_or _)) hcode
    obtain ⟨code, hcode⟩ := (he.writes hn hchain).exists_code
    refine ⟨e, he, fun e' he' => ?_, hparse e he⟩
    exact Except.ok.inj ((hparse e' he' code hcode).symm.trans (hparse e he code hcode))

theorem parse_complete_membership :
    parse "nota not\tin [1,\"it's\" ]" =
      .ok (.binary .isNotIn (.name "nota") (.list [.literal (.int 1), .literal (.str "it's")])) ∧
    parse "a<b or c - d" =
      .ok (.binary .or (.binary .lt (.name "a") (.name "b")) (.binary .sub (.name "c") (.name "d"))) := by
  have hname : ∀ w ∈ ["a", "b", "c", "d", "nota"], IsName w := by
    have hall : ∀ w ∈ ["a", "b", "c", "d", "nota"], w ∉ keywords ∧
        (w.toList.head?.any Path.isRootStart && w.toList.tail.all Path.isRootChar) := by decide +kernel
    exact fun w hw => ⟨isRoot_of_chars (hall w hw).2, (hall w hw).1⟩
  have hquoted : (Lexeme.quoted '"' "it's").IsWellFormed := ⟨.inr rfl, by decide⟩
  constructor
  · have hint : IsWritable (.literal (.int 1)) := .int (by decide)
    have hstr : IsWritable (.literal (.str "it's")) := .str (.inr hquoted.2)
    have hlist : IsWritable (.list [.literal (.int 1), .literal (.str "it's")]) :=
      .list (by simpa using ⟨hint, hstr⟩)
    let items : List (HostExpr × List Lexeme) :=
      [(.literal (.int 1), [.number 1]), (.literal (.str "it's"), [.quoted '"' "it's"])]
    have hitems : ∀ item ∈ items, Written item.1 item.2 := by simpa [items] using ⟨.int 1, .str hquoted⟩
    refine (parse_complete.1 _ (.binary .isNotIn (.name (hname _ (by decide))) hlist)).2 _ _
      (.binary .isNotIn (.name "nota") (.list hitems)) ?_
    exact .token (hname "nota" (by decide)).root (.blank rfl
      (.token (wellFormed_keyword (by decide)) (.blank rfl
      (.token (wellFormed_keyword (by decide)) (.blank rfl
      (.token (wellFormed_sign (by decide)) (.token trivial (.token (wellFormed_sign (by decide))
      (.token hquoted (.blank rfl (.token (wellFormed_sign (by decide)) .nil (by decide))) (by decide))
      (by decide)) (by decide)) (by decide))) (by decide))) (by decide))) (by decide)
  · have hless : Grouped (.binary .lt (.name "a") (.name "b")) "a" [(.lt, "b")] :=
      @Grouped.binary .lt _ _ "a" "b" [] [] (.name "a") (.name "b") (.inl (by decide)) (by decide)
    have hminus : Grouped (.binary .sub (.name "c") (.name "d")) "c" [(.sub, "d")] :=
      @Grouped.binary .sub _ _ "c" "d" [] [] (.name "c") (.name "d") (.inl (by decide)) (by decide)
    have hor := @Grouped.binary .or _ _ "a" "c" _ _ hless hminus (.inl (by decide)) (by decide)
    have hcompared : ComparedOnce [.lt, .or, .sub] := .of_countP (by decide)
    obtain ⟨e, -, hunique, hread⟩ := parse_complete.2 "a" [(.lt, "b"), (.or, "c"), (.sub, "d")]
      (hname "a" (by decide)) (by simpa using ⟨hname "b" (by decide), hname "c" (by decide), hname "d" (by decide)⟩)
      hcompared
    rw [hunique _ hor]
    refine hread _ ?_
    exact .token (hname "a" (by decide)).root (.token (wellFormed_sign (by decide))
      (.token (hname "b" (by decide)).root (.blank rfl (.token (wellFormed_keyword (by decide)) (.blank rfl
      (.token (hname "c" (by decide)).root (.blank rfl (.token (wellFormed_sign (by decide)) (.blank rfl
      (.token (hname "d" (by decide)).root .nil (by decide))) (by decide))) (by decide))) (by decide)))
      (by decide)) (by decide)) (by decide)

end MarkupTemplate.Host
