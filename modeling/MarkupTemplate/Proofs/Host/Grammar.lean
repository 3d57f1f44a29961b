import MarkupTemplate.Proofs.Host.Operands

/-!
# What the readers of host code read

The grammar of host code (`Writes`) has one level for each reader, and an operator whose operands are of its level or
tighter. An expression of a level in front of tokens that can follow it is read by the level's reader, which then
goes on behind it (`ReadsAs`): a level that is grouped to the left goes on with what was read as its left operand.
Each production keeps that, so a text of the grammar is read as the expression that it writes (`parse_writes`).
-/

namespace MarkupTemplate.Host

open Text Lexeme

/-! ### Readers of the levels -/

namespace Level

/-- The reader of a level. -/
def read (nested : Reader HostExpr) : Level → Reader HostExpr
  | operand => postfixed nested
  | negated => Host.negated nested
  | product => Host.product nested
  | sum => Host.sum nested
  | comparison => Host.comparison nested
  | not => notLevel nested
  | and => andLevel nested
  | or => orLevel nested

/-- What a level does behind an expression that it has read. -/
def goOn (nested : Reader HostExpr) : Level → HostExpr → Reader HostExpr
  | operand => suffixes nested
  | product => moreOperands (Host.negated nested) productOp?
  | sum => moreOperands (Host.product nested) sumOp?
  | and => moreOperands (notLevel nested) andOp?
  | or => moreOperands (andLevel nested) orOp?
  | negated | comparison | not => fun e cs => .ok (e, cs)

/-- The next tighter level. -/
def tighter : Level → Level
  | operand => operand
  | negated => operand
  | product => negated
  | sum => product
  | comparison => sum
  | not => comparison
  | and => not
  | or => and

theorem le_tighter {L M : Level} (h : L < M) : L ≤ M.tighter := by
  revert h
  cases L <;> cases M <;> decide

end Level

/-- The loosest level of the left operand: only comparisons are not grouped. -/
def leftLevel (op : BinaryOp) : Level :=
  if op.level = .comparison then .sum else op.level

variable {nested : Reader HostExpr} {L : Level} {e l r : HostExpr} {t : Lexeme} {ts us : List Lexeme}
  {cs rest : List Char} {w s : String} {op : BinaryOp} {depth : Nat}

theorem moreOperands_none {operand : Reader HostExpr} {op? : List Char → Option (BinaryOp × List Char)}
    (h : op? cs = none) : moreOperands operand op? e cs = .ok (e, cs) := by
  rw [moreOperands, h]

theorem moreOperands_step {operand : Reader HostExpr} {op? : List Char → Option (BinaryOp × List Char)}
    {between after : List Char} (hop : op? cs = some (op, between)) (hright : operand between = .ok (r, after))
    (hlt : after.length < cs.length) :
    moreOperands operand op? e cs = moreOperands operand op? (.binary op e r) after := by
  rw [moreOperands, hop]
  dsimp only
  rw [hright]
  exact if_pos hlt

theorem postfixed_eq (h : primary nested (skipSpace cs) = .ok (e, rest)) :
    postfixed nested cs = suffixes nested e (skipSpace rest) := by
  rw [postfixed, h]
  rfl

theorem negated_eq_postfixed (h : Spaced ts cs) (hbegins : Begins .operand ts) :
    negated nested cs = postfixed nested cs := by
  have hminus : front ts ≠ some '-' := front_ne h hbegins.forall_head (by decide +kernel) (by decide)
  rw [negated, sign?_eq_none h rfl hminus]

theorem leftGrouped_eq {operand : Reader HostExpr} {op? : List Char → Option (BinaryOp × List Char)}
    (h : operand cs = .ok (e, rest)) : leftGrouped operand op? cs = moreOperands operand op? e rest := by
  rw [leftGrouped, h]
  rfl

theorem comparison_none (hleft : sum nested cs = .ok (e, rest)) (hop : comparisonOp? rest = none) :
    comparison nested cs = .ok (e, rest) := by
  refine bind_eq_ok.2 ⟨(e, rest), hleft, ?_⟩
  dsimp only
  rw [hop]
  rfl

theorem comparison_step {between after behind : List Char} (hleft : sum nested cs = .ok (l, between))
    (hop : comparisonOp? between = some (op, after)) (hright : sum nested after = .ok (r, behind)) :
    comparison nested cs = .ok (.binary op l r, behind) := by
  refine bind_eq_ok.2 ⟨(l, between), hleft, ?_⟩
  dsimp only
  rw [hop]
  exact bind_eq_ok.2 ⟨(r, behind), hright, rfl⟩

theorem suffixes_none (h : suffix? nested cs = .ok none) : suffixes nested e cs = .ok (e, cs) := by
  rw [suffixes, h]
  rfl

theorem suffixes_step {suffix : Suffix} {e' : HostExpr} (hread : suffix? nested cs = .ok (some (suffix, rest)))
    (happly : applySuffix cs e suffix = .ok e') (hlt : rest.length < cs.length) :
    suffixes nested e cs = suffixes nested e' rest := by
  rw [suffixes, hread]
  show (do let e' ← applySuffix cs e suffix; if rest.length < cs.length then suffixes nested e' rest else _) = _
  rw [happly]
  exact if_pos hlt

/-! ### Behind an expression -/

theorem suffix?_eq_none (h : Spaced us cs) (hends : Ends .operand us) : suffix? nested cs = .ok none := by
  have hfront {c : Char} (hc : Path.isRootChar c = false ∧ c ≠ '\x27' ∧ c ≠ '"')
      (hsigns : ∀ s ∈ signs, s.toList.head? = some c → ¬∀ M ∈ (sign s).level?, Level.operand < M) :
      front us ≠ some c :=
    front_ne h hends hc hsigns
  have hpoint : sign? "." cs = none := sign?_eq_none h rfl (hfront (by decide +kernel) (by decide))
  have hindex : sign? "[" cs = none := sign?_eq_none h rfl (hfront (by decide +kernel) (by decide))
  have hcall : sign? "(" cs = none := sign?_eq_none h rfl (hfront (by decide +kernel) (by decide))
  rw [suffix?, hpoint]
  dsimp only [Option.bind_none]
  rw [hindex, hcall]

/-- In front of a token that does not go on with the level, nothing more is read. -/
theorem Level.goOn_of_ends (h : Spaced us cs) (hends : Ends L us) : L.goOn nested e cs = .ok (e, cs) := by
  have hnone : L.operator? cs = none := Level.operator?_eq_none h hends.level?_ne
  cases L with
  | operand => exact suffixes_none (suffix?_eq_none h hends)
  | product | sum | and | or => exact moreOperands_none hnone
  | negated | comparison | not => rfl

/-- Behind the left operand of an operator that is grouped to the left. -/
theorem Level.goOn_step (hL : L ≠ .comparison) {between after : List Char}
    (hread : L.operator? cs = some (op, between)) (hright : L.tighter.read nested between = .ok (r, after))
    (hlt : after.length < cs.length) : L.goOn nested e cs = L.goOn nested (.binary op e r) after := by
  cases L with
  | product | sum | and | or => exact moreOperands_step hread hright hlt
  | comparison => exact absurd rfl hL
  | operand | negated | not => cases hread

/-! ### The grammar -/

/-- Rows of tokens with commas between them. -/
def separated : List (List Lexeme) → List Lexeme
  | [] => []
  | ts :: more => ts ++ more.flatMap fun us => .sign "," :: us

/-- The grammar: tokens that write an expression of a level. -/
inductive Writes : Level → HostExpr → List Lexeme → Prop
  | literal {v : Value} {t : Lexeme} (ht : t.IsWellFormed) (h : t.literal? = some v) : Writes .negated (.literal v) [t]
  | name {w : String} (h : IsName w) : Writes .operand (.name w) [.word w]
  | group {e : HostExpr} {ts : List Lexeme} (h : Writes .or e ts) :
      Writes .operand e (.sign "(" :: (ts ++ [.sign ")"]))
  | list {items : List (HostExpr × List Lexeme)} (h : ∀ item ∈ items, Writes .or item.1 item.2) :
      Writes .operand (.list (items.map (·.1))) (.sign "[" :: (separated (items.map (·.2)) ++ [.sign "]"]))
  | member {e : HostExpr} {ts : List Lexeme} {w : String} (h : Writes .operand e ts) (hw : Path.IsRoot w) :
      Writes .operand (.member e w) (ts ++ [.sign ".", .word w])
  | index {e i : HostExpr} {ts us : List Lexeme} (h : Writes .operand e ts) (hi : Writes .or i us) :
      Writes .operand (.index e i) (ts ++ .sign "[" :: (us ++ [.sign "]"]))
  | call {f : String} {args : List (HostExpr × List Lexeme)} (hf : IsName f)
      (h : ∀ arg ∈ args, Writes .or arg.1 arg.2) :
      Writes .operand (.call f (args.map (·.1)))
        (.word f :: .sign "(" :: (separated (args.map (·.2)) ++ [.sign ")"]))
  | unary {e : HostExpr} {ts : List Lexeme} (op : UnaryOp) (h : Writes op.level e ts) :
      Writes op.level (.unary op e) (op.token :: ts)
  | binary {l r : HostExpr} {ts us : List Lexeme} (op : BinaryOp) (hl : Writes (leftLevel op) l ts)
      (hr : Writes op.level.tighter r us) : Writes op.level (.binary op l r) (ts ++ (op.tokens ++ us))
  | looser {L : Level} {e : HostExpr} {ts : List Lexeme} (h : Writes L e ts) : Writes L.next e ts

theorem begins_word (h : w ∉ ["in", "and", "or", "not"]) (ts : List Lexeme) : Begins .operand (.word w :: ts) := by
  simp only [List.mem_cons, List.not_mem_nil, or_false, not_or] at h
  exact ⟨_, rfl, .operand, by simp [begins?, h], le_rfl⟩

theorem begins_of_literal {v : Value} (h : t.literal? = some v) : Begins .operand [t] := by
  cases t with
  | sign s => cases h
  | number n => exact ⟨_, rfl, _, rfl, le_rfl⟩
  | quoted quote s => exact ⟨_, rfl, _, rfl, le_rfl⟩
  | word w =>
    refine begins_word (fun hw => ?_) _
    have hnone : ∀ w ∈ ["in", "and", "or", "not"], (constants.lookup w).isNone := by decide
    have hw := hnone w hw
    rw [show constants.lookup w = some v from h] at hw
    cases hw

theorem begins_of_name (h : IsName w) (ts : List Lexeme) : Begins .operand (.word w :: ts) := by
  have hall : ∀ w ∈ ["in", "and", "or", "not"], w ∈ keywords := by decide
  exact begins_word (fun hw => h.notKeyword (hall w hw)) ts

/-- An expression begins with a token that expressions of its level begin with. -/
theorem Writes.begins (h : Writes L e ts) : Begins L ts := by
  induction h with
  | literal _ h => exact (begins_of_literal h).mono (by decide)
  | name h => exact begins_of_name h _
  | group => exact ⟨_, rfl, _, rfl, le_rfl⟩
  | list => exact ⟨_, rfl, _, rfl, le_rfl⟩
  | member _ _ ih => exact ih.append _
  | index _ _ ih _ => exact ih.append _
  | call hf => exact begins_of_name hf _
  | unary op => cases op <;> exact ⟨_, rfl, _, rfl, le_rfl⟩
  | @binary l r ts us op hl hr ih _ => 
    have hle : leftLevel op ≤ op.level := by cases op <;> decide
    exact (ih.mono hle).append _
  | @looser L e ts h ih => 
    have hle : L ≤ L.next := by cases L <;> decide
    exact ih.mono hle

/-- Wherever tokens stand that write an expression of the level and something follows that can follow it, the level's
reader reads the expression and goes on behind it. -/
def ReadsAs (depth : Nat) (L : Level) (e : HostExpr) (ts : List Lexeme) : Prop :=
  ∀ us cs, Follows L us → Spaced (ts ++ us) cs →
    ∃ rest, L.read (expression depth) cs = L.goOn (expression depth) e rest ∧ Leaves us cs rest

namespace ReadsAs

theorem read (h : ReadsAs depth L e ts) (hcs : Spaced (ts ++ us) cs) (hends : Ends L us) :
    ∃ rest, L.read (expression depth) cs = .ok (e, rest) ∧ Leaves us cs rest := by
  obtain ⟨rest, hread, hleaves⟩ := h us cs hends.follows hcs
  exact ⟨rest, hread.trans (Level.goOn_of_ends hleaves.spaced hends), hleaves⟩

/-- An expression is one of the next looser level. -/
theorem looser (h : ReadsAs depth L e ts) (hbegins : Begins L ts) : ReadsAs depth L.next e ts := by
  intro us cs hfollows hcs
  cases L with
  | or => exact h us cs hfollows hcs
  | operand =>
    obtain ⟨rest, hread, hleaves⟩ := h.read hcs (hfollows.ends (by decide))
    exact ⟨rest, (negated_eq_postfixed hcs (hbegins.append us)).trans hread, hleaves⟩
  | sum =>
    obtain ⟨rest, hread, hleaves⟩ := h.read hcs (hfollows.ends (by decide))
    have hnone : Level.comparison.operator? rest = none :=
      Level.operator?_eq_none hleaves.spaced hfollows.ends_comparison.level?_ne
    exact ⟨rest, comparison_none hread hnone, hleaves⟩
  | comparison =>
    obtain ⟨rest, hread, hleaves⟩ := h.read hcs (hfollows.ends (by decide))
    have hword : (ts ++ us).head? ≠ some (.word "not") := fun hhead =>
      absurd ((hbegins.append us).forall_head _ hhead) (by decide)
    have hnot : notLevel (expression depth) cs = .ok (e, rest) := by
      rw [notLevel, spacedWord?_eq_none hcs (isRoot_of_keyword (by decide)) hword]
      exact hread
    exact ⟨rest, hnot, hleaves⟩
  | negated | product | not | and =>
    obtain ⟨rest, hread, hleaves⟩ := h.read hcs (hfollows.ends (by decide))
    exact ⟨rest, leftGrouped_eq hread, hleaves⟩

theorem name (hw : IsName w) : ReadsAs depth .operand (.name w) [.word w] := by
  intro us cs _ hcs
  obtain ⟨rest, hread, hleaves⟩ := primary_name hw hcs
  exact ⟨_, postfixed_eq hread, hleaves.skip⟩

theorem literal {v : Value} (hv : t.literal? = some v) : ReadsAs depth .negated (.literal v) [t] := by
  intro us cs hfollows hcs
  have hends : Ends .operand us := hfollows.ends (by decide)
  obtain ⟨rest, hread, hleaves⟩ := primary_literal hcs hv hends
  have hsuffixes : suffixes (expression depth) (.literal v) (skipSpace rest) = .ok (.literal v, skipSpace rest) :=
    suffixes_none (suffix?_eq_none hleaves.skip.spaced hends)
  have hnegated : negated (expression depth) cs = .ok (.literal v, skipSpace rest) := by
    rw [negated_eq_postfixed hcs ((begins_of_literal hv).append us), postfixed_eq hread, hsuffixes]
  exact ⟨_, hnegated, hleaves.skip⟩

/-- An expression between brackets is read with its own brackets one level deeper. -/
theorem between (h : ReadsAs depth .or e ts) (hcs : Spaced (ts ++ us) cs) (hends : Ends .or us) :
    ∃ rest, expression (depth + 1) cs = .ok (e, rest) ∧ Leaves us cs rest :=
  h.read hcs hends

end ReadsAs

/-! ### Brackets -/

section Brackets

variable {items : List (HostExpr × List Lexeme)} {close : String}

theorem ends_close (hclose : close ∈ ["]", ")"]) (L : Level) (us : List Lexeme) : Ends L (.sign close :: us) := by
  rintro t ⟨⟩ M hM
  have hnone : ∀ s ∈ ["]", ")"], (sign s).level? = none := by decide
  rw [hnone close hclose] at hM
  cases hM

theorem ends_comma (L : Level) (us : List Lexeme) : Ends L (.sign "," :: us) := by
  rintro t ⟨⟩ M ⟨⟩

theorem ends_items (hclose : close ∈ ["]", ")"]) (L : Level) (items : List (HostExpr × List Lexeme))
    (us : List Lexeme) : Ends L ((items.map (·.2)).flatMap (fun ts => .sign "," :: ts) ++ .sign close :: us) := by
  cases items with
  | nil => exact ends_close hclose L us
  | cons => exact ends_comma L _

theorem moreItems_read (h : ∀ item ∈ items, ReadsAs depth .or item.1 item.2) (hclose : close ∈ ["]", ")"])
    (hcs : Spaced ((items.map (·.2)).flatMap (fun ts => .sign "," :: ts) ++ .sign close :: us) cs) :
    ∃ rest, moreItems (expression (depth + 1)) cs = .ok (items.map (·.1), rest) ∧
      Spaced (.sign close :: us) rest ∧ rest.length ≤ cs.length := by
  induction items generalizing cs with
  | nil =>
    have hcomma : front (.sign close :: us) ≠ some ',' := by
      have hall : ∀ s ∈ ["]", ")"], s.toList.head? ≠ some ',' := by decide
      exact hall close hclose
    refine ⟨cs, ?_, hcs, Nat.le_refl _⟩
    rw [moreItems, sign?_eq_none hcs rfl hcomma]
    rfl
  | cons item items ih =>
    rw [List.map_cons, List.flatMap_cons, List.append_assoc, List.cons_append] at hcs
    obtain ⟨next, hcomma, hnext⟩ := sign?_read hcs
    obtain ⟨after, hitem, hafter⟩ := (h item List.mem_cons_self).between hnext.spaced (ends_items hclose .or items us)
    obtain ⟨rest, hmore, hrest, hle⟩ := ih (fun i hi => h i (List.mem_cons_of_mem _ hi)) hafter.spaced
    have hlt : after.length < cs.length := (hafter.trans hnext).shorter
    refine ⟨rest, ?_, hrest, by omega⟩
    rw [moreItems, hcomma]
    dsimp only
    rw [hitem]
    dsimp only
    rw [if_pos hlt, hmore]
    rfl

theorem closed?_read {α : Type} {inner : Reader α} {a : α} {after : List Char} (hinner : inner cs = .ok (a, rest))
    (hclose : sign? close rest = some after) : closed? inner close cs = .ok (some (a, after)) := by
  rw [closed?, hinner]
  dsimp only
  rw [hclose]
  rfl

/-- Expressions with commas between them are read up to the bracket that closes. -/
theorem closedItems_read (h : ∀ item ∈ items, ReadsAs depth .or item.1 item.2) (hclose : close ∈ ["]", ")"])
    (hcs : Spaced (separated (items.map (·.2)) ++ .sign close :: us) cs) :
    ∃ rest, closed? (itemsOf (expression (depth + 1))) close cs = .ok (some (items.map (·.1), rest)) ∧
      Leaves us cs rest := by
  cases items with
  | nil =>
    obtain ⟨problem, hfails⟩ : ∃ rest, expression (depth + 1) cs = .error (.noOperand rest) := orLevel_close hclose hcs
    obtain ⟨rest, hsign, hleaves⟩ := sign?_read hcs
    have hnone : itemsOf (expression (depth + 1)) cs = .ok ([], cs) := by
      rw [itemsOf, hfails]
      rfl
    exact ⟨rest, closed?_read hnone hsign, hleaves⟩
  | cons item items =>
    rw [List.map_cons, separated, List.append_assoc] at hcs
    obtain ⟨after, hitem, hafter⟩ := (h item List.mem_cons_self).between hcs (ends_items hclose .or items us)
    obtain ⟨behind, hmore, hbehind, hle⟩ :=
      moreItems_read (fun i hi => h i (List.mem_cons_of_mem _ hi)) hclose hafter.spaced
    obtain ⟨rest, hsign, hleaves⟩ := sign?_read hbehind
    have hitems : itemsOf (expression (depth + 1)) cs = .ok ((item :: items).map (·.1), behind) := by
      rw [itemsOf, hitem]
      dsimp only
      rw [hmore]
      rfl
    have := hafter.shorter
    have := hleaves.shorter
    exact ⟨rest, closed?_read hitems hsign, hleaves.spaced, by omega⟩

end Brackets

namespace ReadsAs

variable {items : List (HostExpr × List Lexeme)}

theorem group (h : ReadsAs depth .or e ts) : ReadsAs (depth + 1) .operand e (.sign "(" :: (ts ++ [.sign ")"])) := by
  intro us cs _ hcs
  rw [List.cons_append, List.append_assoc] at hcs
  obtain ⟨inside, hopen, hinside, -⟩ := hcs.leaves
  obtain ⟨behind, hread, hbehind⟩ := h.between hinside.skip.spaced (ends_close (by decide) .or us)
  obtain ⟨rest, hclose, hrest⟩ := sign?_read hbehind.spaced
  have hbracketed : bracketed? (expression (depth + 1)) (skipSpace cs) = .ok (some (e, rest)) := by
    rw [hopen]
    exact closed?_read hread hclose
  exact ⟨_, postfixed_eq (primary_bracketed hcs hbracketed), (hrest.trans (hbehind.trans hinside.skip)).skip⟩

theorem list (h : ∀ item ∈ items, ReadsAs depth .or item.1 item.2) :
    ReadsAs (depth + 1) .operand (.list (items.map (·.1)))
      (.sign "[" :: (separated (items.map (·.2)) ++ [.sign "]"])) := by
  intro us cs _ hcs
  rw [List.cons_append, List.append_assoc] at hcs
  obtain ⟨inside, hopen, hinside, -⟩ := hcs.leaves
  obtain ⟨rest, hread, hrest⟩ := closedItems_read h (by decide) hinside.spaced
  have hbracketed : bracketed? (expression (depth + 1)) (skipSpace cs) =
      .ok (some (.list (items.map (·.1)), rest)) := by
    rw [hopen]
    exact bind_eq_ok.2 ⟨_, hread, rfl⟩
  exact ⟨_, postfixed_eq (primary_bracketed hcs hbracketed), (hrest.trans hinside).skip⟩

/-- An operand with a suffix behind it is an operand. -/
theorem suffixed (suffix : Suffix) {e' : HostExpr} (h : ReadsAs depth .operand e ts)
    (happly : ∀ cs, applySuffix cs e suffix = .ok e') (hfollows : ∀ vs, Follows .operand (us ++ vs))
    (hread : ∀ vs cs, Spaced (us ++ vs) cs →
      ∃ rest, suffix? (expression depth) cs = .ok (some (suffix, rest)) ∧ Leaves vs cs rest) :
    ReadsAs depth .operand e' (ts ++ us) := by
  intro vs cs _ hcs
  rw [List.append_assoc] at hcs
  obtain ⟨behind, hoperand, hbehind⟩ := h _ cs (hfollows vs) hcs
  obtain ⟨rest, hsuffix, hrest⟩ := hread vs behind hbehind.spaced
  exact ⟨rest, hoperand.trans (suffixes_step hsuffix (happly behind) hrest.shorter), hrest.trans hbehind⟩

theorem follows_open {s : String} (hs : s ∈ [".", "[", "("]) (us : List Lexeme) : Follows .operand (.sign s :: us) := by
  rintro t ⟨⟩ M hM
  have hall : ∀ s ∈ [".", "[", "("], (sign s).level? = some .operand := by decide
  rw [hall s hs] at hM
  cases hM
  exact .inr ⟨rfl, by decide⟩

theorem member (h : ReadsAs depth .operand e ts) (hw : Path.IsRoot w) :
    ReadsAs depth .operand (.member e w) (ts ++ [.sign ".", .word w]) := by
  refine h.suffixed (.member w) (fun _ => rfl) (fun vs => follows_open (by decide) _) fun vs cs hcs => ?_
  obtain ⟨after, hpoint, hafter⟩ := sign?_read hcs
  obtain ⟨rest, hword, hrest, -, hapart⟩ := hafter.spaced.leaves
  rw [skipSpace_of_sign? hpoint] at hword
  have hroot := root?_word hw (hrest.spaced.stops (hapart rfl))
  refine ⟨rest, ?_, hrest.trans hafter⟩
  rw [suffix?, hpoint, Option.bind_some, hword, text, hroot]
  simp

theorem index {i : HostExpr} (h : ReadsAs (depth + 1) .operand e ts) (hi : ReadsAs depth .or i us) :
    ReadsAs (depth + 1) .operand (.index e i) (ts ++ .sign "[" :: (us ++ [.sign "]"])) := by
  refine h.suffixed (.index i) (fun _ => rfl) (fun vs => follows_open (by decide) _) fun vs cs hcs => ?_
  rw [List.cons_append, List.append_assoc] at hcs
  have hpoint : sign? "." cs = none := sign?_eq_none hcs rfl (show "[".toList.head? ≠ some '.' by decide)
  obtain ⟨inside, hopen, hinside⟩ := sign?_read hcs
  obtain ⟨behind, hread, hbehind⟩ := hi.between hinside.spaced (ends_close (by decide) .or vs)
  obtain ⟨rest, hclose, hrest⟩ := sign?_read hbehind.spaced
  refine ⟨rest, ?_, hrest.trans (hbehind.trans hinside)⟩
  rw [suffix?, hpoint]
  dsimp only [Option.bind_none]
  rw [hopen]
  exact bind_eq_ok.2 ⟨_, closed?_read hread hclose, rfl⟩

theorem call (hw : IsName w) (h : ∀ item ∈ items, ReadsAs depth .or item.1 item.2) :
    ReadsAs (depth + 1) .operand (.call w (items.map (·.1)))
      (.word w :: .sign "(" :: (separated (items.map (·.2)) ++ [.sign ")"])) := by
  refine (name hw).suffixed (.call (items.map (·.1))) (fun _ => rfl)
    (fun vs => follows_open (by decide) _) fun vs cs hcs => ?_
  rw [List.cons_append, List.append_assoc] at hcs
  have hpoint : sign? "." cs = none := sign?_eq_none hcs rfl (show "(".toList.head? ≠ some '.' by decide)
  have hindex : sign? "[" cs = none := sign?_eq_none hcs rfl (show "(".toList.head? ≠ some '[' by decide)
  obtain ⟨inside, hopen, hinside⟩ := sign?_read hcs
  obtain ⟨rest, hread, hrest⟩ := closedItems_read h (by decide) hinside.spaced
  refine ⟨rest, ?_, hrest.trans hinside⟩
  rw [suffix?, hpoint]
  dsimp only [Option.bind_none]
  rw [hindex]
  dsimp only
  rw [hopen]
  exact bind_eq_ok.2 ⟨_, hread, rfl⟩

theorem unary (op : UnaryOp) (h : ReadsAs depth op.level e ts) :
    ReadsAs depth op.level (.unary op e) (op.token :: ts) := by
  intro us cs hfollows hcs
  cases op with
  | neg =>
    obtain ⟨after, hminus, hafter⟩ := sign?_read hcs
    obtain ⟨rest, hread, hrest⟩ := h us after hfollows hafter.spaced
    have hnegated : negated (expression depth) cs = .ok (.unary .neg e, rest) := by
      rw [negated, hminus]
      dsimp only
      rw [if_pos hafter.shorter, show negated _ after = _ from hread]
      rfl
    exact ⟨rest, hnegated, hrest.trans hafter⟩
  | not =>
    obtain ⟨after, hnot, hafter⟩ := spacedWord?_read hcs
    obtain ⟨rest, hread, hrest⟩ := h us after hfollows hafter.spaced
    have hlevel : notLevel (expression depth) cs = .ok (.unary .not e, rest) := by
      rw [notLevel, hnot]
      dsimp only
      rw [if_pos hafter.shorter, show notLevel _ after = _ from hread]
      rfl
    exact ⟨rest, hlevel, hrest.trans hafter⟩

theorem level?_tokens (op : BinaryOp) (ts : List Lexeme) : ∀ t ∈ (op.tokens ++ ts).head?, t.level? = some op.level := by
  cases op <;> rintro t ⟨⟩ <;> rfl

theorem binary (op : BinaryOp) (hl : ReadsAs depth (leftLevel op) l ts) (hr : ReadsAs depth op.level.tighter r us)
    (hbegins : Begins op.level.tighter us) : ReadsAs depth op.level (.binary op l r) (ts ++ (op.tokens ++ us)) := by
  intro vs cs hfollows hcs
  rw [List.append_assoc, List.append_assoc] at hcs
  have hright : Begins .or (us ++ vs) := (hbegins.mono (Level.le_or _)).append vs
  have htighter : Ends op.level.tighter vs := hfollows.ends (by cases op <;> decide)
  by_cases hop : op.level = .comparison
  · -- a comparison is no operand of another, so neither sum goes on with one
    rw [leftLevel, if_pos hop] at hl
    have hends : Ends .sum (op.tokens ++ (us ++ vs)) := by
      intro t ht M hM
      rw [level?_tokens op _ t ht, hop] at hM
      cases hM
      decide
    obtain ⟨between, hleft, hbetween⟩ := hl.read hcs hends
    obtain ⟨after, hread, hafter⟩ := operator?_read op hbetween.spaced hright
    obtain ⟨rest, hreadr, hrest⟩ := hr.read hafter.spaced htighter
    rw [hop] at hread hreadr ⊢
    exact ⟨rest, comparison_step hleft hread hreadr, hrest.trans (hafter.trans hbetween)⟩
  · rw [leftLevel, if_neg hop] at hl
    have hfollowsop : Follows op.level (op.tokens ++ (us ++ vs)) := by
      intro t ht M hM
      rw [level?_tokens op _ t ht] at hM
      cases hM
      exact .inr ⟨rfl, hop⟩
    obtain ⟨between, hleft, hbetween⟩ := hl _ cs hfollowsop hcs
    obtain ⟨after, hread, hafter⟩ := operator?_read op hbetween.spaced hright
    obtain ⟨rest, hreadr, hrest⟩ := hr.read hafter.spaced htighter
    exact ⟨rest, hleft.trans (Level.goOn_step hop hread hreadr (hrest.trans hafter).shorter),
      hrest.trans (hafter.trans hbetween)⟩

end ReadsAs

/-! ### Whole texts -/

/-- The token opens a bracket. -/
def Lexeme.opens : Lexeme → Bool
  | sign s => s = "(" || s = "["
  | word _ | number _ | quoted _ _ => false

/-- The number of brackets that tokens open. -/
def opened (ts : List Lexeme) : Nat :=
  ts.countP opens

theorem opened_append (ts us : List Lexeme) : opened (ts ++ us) = opened ts + opened us :=
  List.countP_append

theorem opened_le_cons (t : Lexeme) (ts : List Lexeme) : opened ts ≤ opened (t :: ts) :=
  (List.sublist_cons_self t ts).countP_le

/-- What stands in brackets opens fewer of them. -/
theorem exists_depth (hs : (sign s).opens) (hd : opened (.sign s :: (ts ++ us)) ≤ depth) :
    ∃ inner, depth = inner + 1 ∧ opened ts ≤ inner := by
  rw [opened, List.countP_cons_of_pos hs, List.countP_append] at hd
  exact ⟨depth - 1, by omega, show ts.countP opens ≤ depth - 1 by omega⟩

theorem infix_separated {rows : List (List Lexeme)} (h : ts ∈ rows) : ts <:+: separated rows := by
  cases rows with
  | nil => cases h
  | cons us rows =>
    rcases List.mem_cons.1 h with rfl | h
    · exact (List.prefix_append _ _).isInfix
    · have hrow : (Lexeme.sign "," :: ts) <:+: rows.flatMap fun us => .sign "," :: us :=
        List.infix_of_mem_flatten (List.mem_map_of_mem h)
      exact (List.suffix_cons _ ts).isInfix.trans (hrow.trans (List.suffix_append _ _).isInfix)

theorem opened_le_separated {items : List (HostExpr × List Lexeme)} {item : HostExpr × List Lexeme} (h : item ∈ items) :
    opened item.2 ≤ opened (separated (items.map (·.2))) :=
  (infix_separated (List.mem_map_of_mem h)).sublist.countP_le

/-- Every production keeps the meaning, as long as the readers go as deep as brackets are opened. -/
theorem Writes.readsAs (h : Writes L e ts) : ∀ depth, opened ts ≤ depth → ReadsAs depth L e ts := by
  induction h with
  | literal _ h => exact fun depth _ => .literal h
  | name h => exact fun depth _ => .name h
  | looser h ih => exact fun depth hd => (ih depth hd).looser h.begins
  | member h hw ih =>
    intro depth hd
    rw [opened_append] at hd
    exact (ih depth (by omega)).member hw
  | unary op h ih => exact fun depth hd => .unary op (ih depth ((opened_le_cons _ _).trans hd))
  | binary op hl hr ihl ihr =>
    intro depth hd
    rw [opened_append, opened_append] at hd
    exact .binary op (ihl depth (by omega)) (ihr depth (by omega)) hr.begins
  -- what stands in brackets is read one level deeper
  | group h ih =>
    intro depth hd
    obtain ⟨inner, rfl, hinner⟩ := exists_depth rfl hd
    exact .group (ih inner hinner)
  | list h ih =>
    intro depth hd
    obtain ⟨inner, rfl, hinner⟩ := exists_depth rfl hd
    exact .list fun item hitem => ih item hitem inner ((opened_le_separated hitem).trans hinner)
  | index h hi ih ihi =>
    intro depth hd
    rw [opened_append] at hd
    obtain ⟨inner, rfl, hinner⟩ := exists_depth rfl (Nat.le_of_add_left_le hd)
    exact .index (ih _ (by omega)) (ihi inner hinner)
  | call hf h ih =>
    intro depth hd
    obtain ⟨inner, rfl, hinner⟩ := exists_depth rfl ((opened_le_cons _ _).trans hd)
    exact .call hf fun arg harg => ih arg harg inner ((opened_le_separated harg).trans hinner)

theorem opened_le_length (h : Spaced ts cs) : opened ts ≤ cs.length := by
  induction h with
  | nil => exact Nat.zero_le _
  | blank _ _ ih => exact Nat.le_succ_of_le ih
  | @token t ts cs ht _ _ ih =>
    obtain ⟨c, text, htext, -⟩ := exists_text ht
    have hle : opened (t :: ts) ≤ opened ts + 1 := by
      rw [opened, List.countP_cons, opened]
      split <;> omega
    simp only [List.length_append, htext, List.length_cons]
    omega

/-- A text of the grammar is read as the expression that it writes. -/
theorem parse_writes {code : String} (h : Writes .or e ts) (hcode : Spaced ts code.toList) : parse code = .ok e := by
  have hread := h.readsAs code.toList.length (opened_le_length hcode)
  have hskip : Spaced (ts ++ []) (skipSpace code.toList) := by simpa using hcode.skip
  obtain ⟨rest, hexpression, hrest⟩ := hread.between hskip (by rintro t ⟨⟩)
  have hchars : parseChars code.toList = .ok e := by
    refine bind_eq_ok.2 ⟨(e, rest), hexpression, ?_⟩
    dsimp only
    rw [hrest.spaced.skipSpace_nil]
    rfl
  rw [parse, hchars]

end MarkupTemplate.Host
