import MarkupTemplate.Proofs.Host.Grammar
import MarkupTemplate.Proofs.Host.Integers

/-!
# Host expressions that are written out

An expression is written with brackets around its operands and around the targets of members and indices wherever
these are operator expressions or literals (`Written`). All tokens that are written so, with blanks between them as
one likes, are of the grammar and give back the expression (`parse_of_written`); so no text writes two.
-/

namespace MarkupTemplate

open Host (Level Lexeme IsName Spaced Writes separated parse)

namespace HostExpr

/-- Built from what can be written: the integers are not negative, a string lacks a quote of one kind, and no keyword
is a name or a function. -/
inductive IsWritable : HostExpr → Prop
  | int {n : Int64} (h : 0 ≤ n.toInt) : IsWritable (.literal (.int n))
  | str {s : String} (h : '\x27' ∉ s.toList ∨ '"' ∉ s.toList) : IsWritable (.literal (.str s))
  | bool (b : Bool) : IsWritable (.literal (.bool b))
  | nothing : IsWritable (.literal .nothing)
  | name {n : String} (h : IsName n) : IsWritable (.name n)
  | list {items : List HostExpr} (h : ∀ e ∈ items, IsWritable e) : IsWritable (.list items)
  | unary {e : HostExpr} (op : UnaryOp) (h : IsWritable e) : IsWritable (.unary op e)
  | binary {l r : HostExpr} (op : BinaryOp) (hl : IsWritable l) (hr : IsWritable r) : IsWritable (.binary op l r)
  | member {e : HostExpr} {n : String} (h : IsWritable e) (hn : Path.IsRoot n) : IsWritable (.member e n)
  | index {e i : HostExpr} (h : IsWritable e) (hi : IsWritable i) : IsWritable (.index e i)
  | call {f : String} {args : List HostExpr} (hf : IsName f) (h : ∀ e ∈ args, IsWritable e) : IsWritable (.call f args)

/-- The level of an expression without brackets around it. -/
def level : HostExpr → Level
  | literal _ => .negated
  | unary op _ => op.level
  | binary op _ _ => op.level
  | name _ | list _ | member _ _ | index _ _ | call _ _ => .operand

/-- An operator expression or a literal. -/
def needsBrackets : HostExpr → Bool
  | literal _ | unary _ _ | binary _ _ _ => true
  | name _ | list _ | member _ _ | index _ _ | call _ _ => false

/-- The tokens of an expression where it is an operand or a target. -/
def enclosed (e : HostExpr) (ts : List Lexeme) : List Lexeme :=
  if e.needsBrackets then .sign "(" :: (ts ++ [.sign ")"]) else ts

/-- Tokens that write an expression. The quote of a string is one that it lacks, and each value that is a word has
two spellings. -/
inductive Written : HostExpr → List Lexeme → Prop
  | int (n : Int64) : Written (.literal (.int n)) [.number n.toInt.toNat]
  | str {quote : Char} {s : String} (h : (Lexeme.quoted quote s).IsWellFormed) :
      Written (.literal (.str s)) [.quoted quote s]
  | constant {w : String} {v : Value} (h : (w, v) ∈ Host.constants) : Written (.literal v) [.word w]
  | name (n : String) : Written (.name n) [.word n]
  | list {items : List (HostExpr × List Lexeme)} (h : ∀ item ∈ items, Written item.1 item.2) :
      Written (.list (items.map (·.1))) (.sign "[" :: (separated (items.map (·.2)) ++ [.sign "]"]))
  | unary {e : HostExpr} {ts : List Lexeme} (op : UnaryOp) (h : Written e ts) :
      Written (.unary op e) (op.token :: e.enclosed ts)
  | binary {l r : HostExpr} {ts us : List Lexeme} (op : BinaryOp) (hl : Written l ts) (hr : Written r us) :
      Written (.binary op l r) (l.enclosed ts ++ (op.tokens ++ r.enclosed us))
  | member {e : HostExpr} {ts : List Lexeme} (h : Written e ts) (n : String) :
      Written (.member e n) (e.enclosed ts ++ [.sign ".", .word n])
  | index {e i : HostExpr} {ts us : List Lexeme} (h : Written e ts) (hi : Written i us) :
      Written (.index e i) (e.enclosed ts ++ .sign "[" :: (us ++ [.sign "]"]))
  | call (f : String) {args : List (HostExpr × List Lexeme)} (h : ∀ arg ∈ args, Written arg.1 arg.2) :
      Written (.call f (args.map (·.1))) (.word f :: .sign "(" :: (separated (args.map (·.2)) ++ [.sign ")"]))

end HostExpr

namespace Host

open HostExpr (IsWritable Written)

variable {L M : Level} {e : HostExpr} {ts : List Lexeme} {cs : List Char} {code : String}

theorem Writes.loosen (h : Writes L e ts) (hle : L ≤ M) : Writes M e ts := by
  induction hn : M.rank - L.rank generalizing L with
  | zero =>
    have hrank : L.rank ≤ M.rank := hle
    obtain rfl : L = M := Level.rank_injective (by omega)
    exact h
  | succ n ih =>
    have hlt : L < M := show L.rank < M.rank by omega
    have hnext := Level.rank_next hlt
    exact ih h.looser (show L.next.rank ≤ M.rank by omega) (by omega)

theorem Writes.enclosed (h : Writes e.level e ts) : Writes .operand e (e.enclosed ts) := by
  unfold HostExpr.enclosed
  split
  · exact .group (h.loosen (Level.le_or _))
  · next hplain =>
    cases e <;> first | exact h | exact absurd rfl hplain

/-- What is written out is of the grammar. -/
theorem writes_of_written (h : Written e ts) (he : IsWritable e) : Writes e.level e ts := by
  induction h with
  | int n =>
    cases he with
    | int hn =>
      have hread : Numeric.int64? n.toInt.toNat = some n := int64?_eq_some.2 (Int.toNat_of_nonneg hn).symm
      exact .literal trivial (by rw [Lexeme.literal?, hread]; rfl)
  | str h => exact .literal h rfl
  | @constant w v h =>
    have hlookup : constants.lookup w = some v := by
      simp only [constants, List.mem_cons, List.not_mem_nil, or_false, Prod.mk.injEq] at h
      rcases h with ⟨rfl, rfl⟩ | ⟨rfl, rfl⟩ | ⟨rfl, rfl⟩ | ⟨rfl, rfl⟩ | ⟨rfl, rfl⟩ | ⟨rfl, rfl⟩ <;> rfl
    exact .literal (isRoot_of_constant h) hlookup
  | name n =>
    cases he with
    | name hn => exact .name hn
  | list h ih =>
    cases he with
    | list hitems =>
      exact .list fun item hitem => (ih item hitem (hitems _ (List.mem_map_of_mem hitem))).loosen (Level.le_or _)
  | unary op h ih =>
    cases he with
    | unary _ he => exact .unary op ((ih he).enclosed.loosen (Level.operand_le _))
  | binary op hl hr ihl ihr =>
    cases he with
    | binary _ hel her =>
      exact .binary op ((ihl hel).enclosed.loosen (Level.operand_le _))
        ((ihr her).enclosed.loosen (Level.operand_le _))
  | member h n ih =>
    cases he with
    | member he hn => exact .member (ih he).enclosed hn
  | index h hi ih ihi =>
    cases he with
    | index he hi => exact .index (ih he).enclosed ((ihi hi).loosen (Level.le_or _))
  | call f h ih =>
    cases he with
    | call hf hargs =>
      exact .call hf fun arg harg => (ih arg harg (hargs _ (List.mem_map_of_mem harg))).loosen (Level.le_or _)

/-- An expression that is written out is read as itself. -/
theorem parse_of_written (h : Written e ts) (he : IsWritable e) (hcode : Spaced ts code.toList) : parse code = .ok e :=
  parse_writes ((writes_of_written h he).loosen (Level.le_or _)) hcode

/-! ### Every expression can be written -/

theorem wellFormed_sign {s : String} (h : s ∈ signs) : (Lexeme.sign s).IsWellFormed := h

theorem wellFormed_keyword {w : String} (h : w ∈ keywords) : (Lexeme.word w).IsWellFormed := isRoot_of_keyword h

theorem wellFormed_tokens (op : BinaryOp) : ∀ t ∈ op.tokens, t.IsWellFormed := by
  cases op with
  | isIn => simpa [BinaryOp.tokens] using wellFormed_keyword (by decide)
  | isNotIn => simpa [BinaryOp.tokens] using ⟨wellFormed_keyword (by decide), wellFormed_keyword (by decide)⟩
  | and => simpa [BinaryOp.tokens] using wellFormed_keyword (by decide)
  | or => simpa [BinaryOp.tokens] using wellFormed_keyword (by decide)
  | _ => simpa [BinaryOp.tokens] using wellFormed_sign (by decide)

theorem wellFormed_token (op : UnaryOp) : op.token.IsWellFormed := by
  cases op with
  | neg => exact wellFormed_sign (by decide)
  | not => exact wellFormed_keyword (by decide)

theorem wellFormed_separated {rows : List (List Lexeme)} (h : ∀ ts ∈ rows, ∀ t ∈ ts, t.IsWellFormed) :
    ∀ t ∈ separated rows, t.IsWellFormed := by
  cases rows with
  | nil => simp [separated]
  | cons ts rows =>
    rw [separated, List.forall_mem_append]
    refine ⟨h ts List.mem_cons_self, fun t ht => ?_⟩
    obtain ⟨us, hus, ht⟩ := List.mem_flatMap.1 ht
    rcases List.mem_cons.1 ht with rfl | ht
    · exact wellFormed_sign (by decide)
    · exact h us (List.mem_cons_of_mem _ hus) t ht

theorem wellFormed_bracketed {first last : String} (hts : ∀ t ∈ ts, t.IsWellFormed) (hfirst : first ∈ signs)
    (hlast : last ∈ signs) : ∀ t ∈ Lexeme.sign first :: (ts ++ [.sign last]), t.IsWellFormed := by
  rw [List.forall_mem_cons, List.forall_mem_append, List.forall_mem_singleton]
  exact ⟨hfirst, hts, hlast⟩

theorem Writes.wellFormed (h : Writes L e ts) : ∀ t ∈ ts, t.IsWellFormed := by
  induction h with
  | literal ht => exact List.forall_mem_singleton.2 ht
  | name h => exact List.forall_mem_singleton.2 h.root
  | looser h ih => exact ih
  | group h ih => exact wellFormed_bracketed ih (by decide) (by decide)
  | list h ih => exact wellFormed_bracketed (wellFormed_separated (List.forall_mem_map.2 ih)) (by decide) (by decide)
  | member h hw ih =>
    exact List.forall_mem_append.2 ⟨ih, List.forall_mem_cons.2
      ⟨wellFormed_sign (by decide), List.forall_mem_singleton.2 hw⟩⟩
  | index h hi ih ihi =>
    exact List.forall_mem_append.2 ⟨ih, wellFormed_bracketed ihi (by decide) (by decide)⟩
  | call hf h ih =>
    exact List.forall_mem_cons.2
      ⟨hf.root, wellFormed_bracketed (wellFormed_separated (List.forall_mem_map.2 ih)) (by decide) (by decide)⟩
  | unary op h ih => exact List.forall_mem_cons.2 ⟨wellFormed_token op, ih⟩
  | binary op hl hr ihl ihr =>
    exact List.forall_mem_append.2 ⟨ihl, List.forall_mem_append.2 ⟨wellFormed_tokens op, ihr⟩⟩

/-- Tokens with a blank before and behind each of them. -/
theorem exists_spaced (h : ∀ t ∈ ts, t.IsWellFormed) : ∃ cs, Spaced ts (' ' :: cs) := by
  induction ts with
  | nil => exact ⟨[], .blank rfl .nil⟩
  | cons t ts ih =>
    obtain ⟨ht, hts⟩ := List.forall_mem_cons.1 h
    obtain ⟨cs, hcs⟩ := ih hts
    exact ⟨t.text ++ ' ' :: cs, .blank rfl (.token ht hcs fun _ _ => rfl)⟩

theorem exists_items {P : HostExpr → List Lexeme → Prop} {es : List HostExpr} (h : ∀ e ∈ es, ∃ ts, P e ts) :
    ∃ items : List (HostExpr × List Lexeme), items.map (·.1) = es ∧ ∀ item ∈ items, P item.1 item.2 := by
  induction es with
  | nil => exact ⟨[], rfl, by simp⟩
  | cons e es ih =>
    obtain ⟨⟨ts, hts⟩, hes⟩ := List.forall_mem_cons.1 h
    obtain ⟨items, rfl, hitems⟩ := ih hes
    exact ⟨(e, ts) :: items, rfl, List.forall_mem_cons.2 ⟨hts, hitems⟩⟩

theorem exists_written (he : IsWritable e) : ∃ ts, Written e ts := by
  induction he with
  | int h => exact ⟨_, .int _⟩
  | str h =>
    rcases h with h | h
    · exact ⟨_, .str ⟨.inl rfl, h⟩⟩
    · exact ⟨_, .str ⟨.inr rfl, h⟩⟩
  | bool b =>
    cases b with
    | true => exact ⟨_, .constant (.head _)⟩
    | false => exact ⟨_, .constant (.tail _ (.tail _ (.head _)))⟩
  | nothing => exact ⟨_, .constant (.tail _ (.tail _ (.tail _ (.tail _ (.head _)))))⟩
  | name h => exact ⟨_, .name _⟩
  | list h ih =>
    obtain ⟨items, rfl, hitems⟩ := exists_items ih
    exact ⟨_, .list hitems⟩
  | unary op h ih =>
    obtain ⟨ts, hts⟩ := ih
    exact ⟨_, .unary op hts⟩
  | binary op hl hr ihl ihr =>
    obtain ⟨ts, hts⟩ := ihl
    obtain ⟨us, hus⟩ := ihr
    exact ⟨_, .binary op hts hus⟩
  | member h hn ih =>
    obtain ⟨ts, hts⟩ := ih
    exact ⟨_, .member hts _⟩
  | index h hi ih ihi =>
    obtain ⟨ts, hts⟩ := ih
    obtain ⟨us, hus⟩ := ihi
    exact ⟨_, .index hts hus⟩
  | call hf h ih =>
    obtain ⟨args, rfl, hargs⟩ := exists_items ih
    exact ⟨_, .call _ hargs⟩

/-- A text of tokens of the grammar. -/
theorem Writes.exists_code (h : Writes L e ts) : ∃ code : String, Spaced ts code.toList := by
  obtain ⟨cs, hcs⟩ := exists_spaced h.wellFormed
  exact ⟨String.ofList (' ' :: cs), by rwa [String.toList_ofList]⟩

end Host

end MarkupTemplate
