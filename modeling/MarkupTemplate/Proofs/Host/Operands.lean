import MarkupTemplate.Proofs.Host.Levels
import MarkupTemplate.Proofs.Results

/-!
# Operands of host code

The tokens that are literals (`Lexeme.literal?`) and names are read as operands, and no closing bracket is one, which
is what ends an empty list.
-/

namespace MarkupTemplate.Host

open Text Lexeme

/-- The words that are values. -/
def constants : List (String × Value) :=
  [("True", .bool true), ("true", .bool true), ("False", .bool false), ("false", .bool false), ("None", .nothing),
   ("null", .nothing)]

/-- The value that a token is. -/
def Lexeme.literal? : Lexeme → Option Value
  | word w => constants.lookup w
  | number n => (Numeric.int64? n).map .int
  | quoted _ s => some (.str s)
  | sign _ => none

/-- A name: no keyword. -/
structure IsName (w : String) : Prop where
  root : Path.IsRoot w
  notKeyword : w ∉ keywords

variable {t : Lexeme} {ts : List Lexeme} {cs rest : List Char} {w s : String} {v : Value}

/-! ### Literals -/

theorem constant?_eq_findSome? (cs : List Char) :
    constant? cs = constants.findSome? fun entry => (word? entry.1 cs).map fun rest => (entry.2, rest) :=
  rfl

theorem front_ne_point (h : Spaced ts cs) (hends : Ends .operand ts) : front ts ≠ some '.' :=
  front_ne h hends (by decide +kernel) (by decide)

theorem number?_digits {n : Nat} (hdigit : Stops Char.isDigit rest) (hpoint : rest.head? ≠ some '.') :
    number? (Nat.toDigits 10 n ++ rest) = (Numeric.int64? n).map fun n => (.int n, rest) := by
  obtain ⟨c, cs, hn, hc⟩ := exists_digits n
  have hall := Json.isDigit_toDigits n
  have hempty : (Nat.toDigits 10 n).isEmpty = false := by rw [hn]; rfl
  have hsign : Numeric.splitSign (Nat.toDigits 10 n) = (false, Nat.toDigits 10 n) := by
    rw [hn]
    unfold Numeric.splitSign
    split
    · next heq => cases heq; cases hc
    · next heq => cases heq; cases hc
    · rfl
  have hread : Numeric.readInt? (Nat.toDigits 10 n) = Numeric.int64? n := by
    rw [Numeric.readInt?, hsign]
    simp [Numeric.readDigits?, hempty, hall, Json.digitsValue_toDigits]
  unfold number?
  dsimp only
  rw [takeWhile_of_stops hall hdigit, dropWhile_of_stops hall hdigit, hempty, if_neg Bool.false_ne_true, hread]
  split
  · exact absurd rfl hpoint
  · rfl

theorem number?_eq_none {c : Char} (hc : c.isDigit = false) : number? (c :: cs) = none := by
  simp [number?, hc]

theorem string?_eq_none {c : Char} (hc : c ≠ '\x27' ∧ c ≠ '"') : string? (c :: cs) = none := by
  unfold string?
  split
  · next heq => exact absurd (List.cons.inj heq).1 hc.1
  · next heq => exact absurd (List.cons.inj heq).1 hc.2
  · rfl

theorem string?_quoted {quote : Char} (ht : (quoted quote s).IsWellFormed) (rest : List Char) :
    string? ((quoted quote s).text ++ rest) = some (.str s, rest) := by
  obtain ⟨hquote, hnot⟩ := ht
  have hall : s.toList.all (· != quote) := by
    rw [List.all_eq_true]
    rintro c hc
    exact bne_iff_ne.2 fun he => hnot (he ▸ hc)
  have hstop : Stops (· != quote) (quote :: rest) := .cons (by simp)
  have hsplit : splitFirst quote (s.toList ++ quote :: rest) = some (s.toList, rest) := by
    rw [splitFirst, dropWhile_of_stops hall hstop, takeWhile_of_stops hall hstop]
  have htext : (quoted quote s).text ++ rest = quote :: (s.toList ++ quote :: rest) := by simp [text]
  rw [htext]
  rcases hquote with rfl | rfl <;> simp only [string?, hsplit, Option.map_some, String.ofList_toList]

theorem findSome?_word {table : List (String × Value)} (htable : ∀ entry ∈ table, Path.IsRoot entry.1)
    (h : Spaced (.word w :: ts) cs) (hcs : skipSpace cs = w.toList ++ rest) (hstop : Stops Path.isRootChar rest) :
    (table.findSome? fun entry => (word? entry.1 (skipSpace cs)).map fun rest => (entry.2, rest)) =
      (table.lookup w).map fun v => (v, rest) := by
  induction table with
  | nil => rfl
  | cons entry table ih =>
    obtain ⟨word, value⟩ := entry
    rw [List.findSome?_cons, List.lookup_cons, ih fun e he => htable e (List.mem_cons_of_mem _ he)]
    by_cases hw : w = word
    · subst hw
      rw [hcs, word?_append hstop, beq_self_eq_true]
      rfl
    · have hne : (w == word) = false := beq_eq_false_iff_ne.2 hw
      have hhead : (Lexeme.word w :: ts).head? ≠ some (.word word) := fun he => hw (by cases he; rfl)
      rw [word?_eq_none h (htable (word, value) List.mem_cons_self) hhead, hne]
      rfl

theorem mem_keywords_of_constant {entry : String × Value} (h : entry ∈ constants) : entry.1 ∈ keywords := by
  have hall : ∀ w ∈ constants.map (·.1), w ∈ keywords := by decide
  exact hall _ (List.mem_map_of_mem h)

theorem isRoot_of_constant {entry : String × Value} (h : entry ∈ constants) : Path.IsRoot entry.1 :=
  isRoot_of_keyword (mem_keywords_of_constant h)

theorem ne_of_isRootStart {c d : Char} (hc : Path.isRootStart c) (hd : Path.isRootStart d = false) : c ≠ d := by
  rintro rfl
  rw [hd] at hc
  cases hc

/-- A word stands for a value, or for none. -/
theorem literal_word (h : Spaced (.word w :: ts) cs) : ∃ rest, skipSpace cs = w.toList ++ rest ∧ Leaves ts cs rest ∧
    Stops Path.isRootChar rest ∧
    ((number? (skipSpace cs)).or (string? (skipSpace cs))).or (constant? (skipSpace cs)) =
      (constants.lookup w).map fun v => (v, rest) := by
  obtain ⟨rest, hcs, hleaves, ht, hapart⟩ := h.leaves
  have hstop := hleaves.spaced.stops (hapart rfl)
  refine ⟨rest, hcs, hleaves, hstop, ?_⟩
  obtain ⟨c, cs', hw, hc, -⟩ := ht
  have hdigit : c.isDigit = false := by
    by_contra hd
    exact ne_of_isRootStart hc (Path.isRootStart_of_isDigit (by simpa using hd)) rfl
  have hnumber : number? (skipSpace cs) = none := by rw [hcs, text, hw]; exact number?_eq_none hdigit
  have hstring : string? (skipSpace cs) = none := by
    rw [hcs, text, hw]
    exact string?_eq_none ⟨ne_of_isRootStart hc (by decide +kernel), ne_of_isRootStart hc (by decide +kernel)⟩
  rw [hnumber, hstring, constant?_eq_findSome?, findSome?_word (fun _ => isRoot_of_constant) h hcs hstop]
  rfl

/-- A sign is no literal. -/
theorem literal_sign (h : Spaced (.sign s :: ts) cs) :
    ((number? (skipSpace cs)).or (string? (skipSpace cs))).or (constant? (skipSpace cs)) = none := by
  obtain ⟨rest, hcs, -, ht, -⟩ := h.leaves
  have hsigns : ∀ s ∈ signs, s.toList.head?.all fun c => !c.isDigit && c != '\x27' && c != '"' := by decide
  have hconstant : constant? (skipSpace cs) = none := by
    rw [constant?_eq_findSome?, List.findSome?_eq_none_iff]
    intro entry hentry
    rw [word?_eq_none h (isRoot_of_constant hentry) (by rintro ⟨⟩)]
    rfl
  obtain ⟨c, cs', htext, -⟩ := exists_text ht
  have hchar := hsigns s ht
  rw [show s.toList = c :: cs' from htext] at hchar
  obtain ⟨⟨hdigit, hsingle⟩, hdouble⟩ : (c.isDigit = false ∧ c ≠ '\x27') ∧ c ≠ '"' := by simpa using hchar
  rw [hconstant, hcs, htext, List.cons_append, number?_eq_none hdigit, string?_eq_none ⟨hsingle, hdouble⟩]
  rfl

variable {nested : Reader HostExpr}

/-- A literal is read as its value. A number needs that no point follows it. -/
theorem primary_literal (h : Spaced (t :: ts) cs) (hv : t.literal? = some v) (hends : Ends .operand ts) :
    ∃ rest, primary nested (skipSpace cs) = .ok (.literal v, rest) ∧ Leaves ts cs rest := by
  obtain ⟨rest, hcs, hleaves, ht, hapart⟩ := h.leaves
  refine ⟨rest, ?_, hleaves⟩
  suffices hread : ((number? (skipSpace cs)).or (string? (skipSpace cs))).or (constant? (skipSpace cs)) =
      some (v, rest) by
    rw [primary, hread]
  cases t with
  | sign s => cases hv
  | number n =>
    have hstops := hleaves.spaced.stops (hapart rfl)
    have hdigit : Stops Char.isDigit rest := fun c hc => by
      by_contra hd
      have hroot := isRootChar_of_isDigit (by simpa using hd)
      rw [hstops c hc] at hroot
      cases hroot
    have hpoint := head_ne hleaves.spaced (by decide) (front_ne_point hleaves.spaced hends)
    obtain ⟨m, hm, rfl⟩ := Option.map_eq_some_iff.1 hv
    rw [hcs, text, number?_digits hdigit hpoint, hm]
    rfl
  | quoted quote s =>
    obtain rfl : v = .str s := (Option.some.inj hv).symm
    have hdigit : quote.isDigit = false := by rcases ht.1 with rfl | rfl <;> rfl
    have hnumber : number? ((quoted quote s).text ++ rest) = none := number?_eq_none hdigit
    rw [hcs, hnumber, string?_quoted ht]
    rfl
  | word w =>
    obtain ⟨rest', hcs', -, -, hread⟩ := literal_word h
    obtain rfl : rest = rest' := List.append_cancel_left (hcs.symm.trans hcs')
    rw [hread, show constants.lookup w = some v from hv]
    rfl

theorem root?_word (hw : Path.IsRoot w) (hstop : Stops Path.isRootChar rest) :
    Path.root? (w.toList ++ rest) = some (w.toList, rest) := by
  obtain ⟨c, cs, hchars, hc, hcs⟩ := hw
  rw [hchars, List.cons_append, Path.root?, if_pos hc, takeWhile_of_stops hcs hstop, dropWhile_of_stops hcs hstop]

theorem bracketed?_eq_none {c : Char} (hc : c ≠ '[' ∧ c ≠ '(') : bracketed? nested (c :: cs) = .ok none := by
  unfold bracketed?
  split
  · next heq => exact absurd (List.cons.inj heq).1 hc.1
  · next heq => exact absurd (List.cons.inj heq).1 hc.2
  · rfl

theorem primary_name (hw : IsName w) (h : Spaced (.word w :: ts) cs) :
    ∃ rest, primary nested (skipSpace cs) = .ok (.name w, rest) ∧ Leaves ts cs rest := by
  obtain ⟨rest, hcs, hleaves, hstop, hread⟩ := literal_word h
  have hnone : constants.lookup w = none := by
    rw [List.lookup_eq_none_iff]
    intro entry hentry
    rw [bne_iff_ne]
    rintro rfl
    exact hw.notKeyword (mem_keywords_of_constant hentry)
  obtain ⟨⟨c, cs', hchars, hc, hcs'⟩, hkeyword⟩ := hw
  have hname : name (skipSpace cs) = .ok (w, rest) := by
    rw [name, hcs, root?_word ⟨c, cs', hchars, hc, hcs'⟩ hstop]
    simp [hkeyword]
  refine ⟨rest, ?_, hleaves⟩
  have hbracket : bracketed? nested (skipSpace cs) = .ok none := by
    rw [hcs, hchars]
    exact bracketed?_eq_none ⟨ne_of_isRootStart hc (by decide +kernel), ne_of_isRootStart hc (by decide +kernel)⟩
  rw [primary, hread, hnone]
  simp only [Option.map_none]
  rw [hbracket, hname]
  rfl

theorem primary_bracketed {read : HostExpr × List Char} (h : Spaced (.sign s :: ts) cs)
    (hread : bracketed? nested (skipSpace cs) = .ok (some read)) : primary nested (skipSpace cs) = .ok read := by
  rw [primary, literal_sign h]
  exact bind_eq_ok.2 ⟨_, hread, rfl⟩

/-- A bracket that closes is no expression, so that none is read between two brackets. -/
theorem orLevel_close {close : String} (hclose : close ∈ ["]", ")"]) (h : Spaced (.sign close :: ts) cs) :
    ∃ rest, orLevel nested cs = .error (.noOperand rest) := by
  obtain ⟨rest, hcs, -⟩ := h.leaves
  obtain ⟨c, hc, hchars⟩ : ∃ c, (c = ']' ∨ c = ')') ∧ close.toList = [c] := by
    simp only [List.mem_cons, List.not_mem_nil, or_false] at hclose
    rcases hclose with rfl | rfl
    · exact ⟨']', .inl rfl, rfl⟩
    · exact ⟨')', .inr rfl, rfl⟩
  have hfront : front (.sign close :: ts) ≠ some '-' := by
    rw [front, List.head?_cons, Option.bind_some, text, hchars]
    rcases hc with rfl | rfl <;> decide
  have hprimary : primary nested (skipSpace cs) = .error (.noOperand (String.ofList (c :: rest))) := by
    rw [primary, literal_sign h]
    dsimp only
    rw [hcs, text, hchars, List.singleton_append]
    rcases hc with rfl | rfl
    · rw [bracketed?_eq_none (by decide)]
      rfl
    · rw [bracketed?_eq_none (by decide)]
      rfl
  have hnot : spacedWord? "not" cs = none := spacedWord?_eq_none h (isRoot_of_keyword (by decide)) (by rintro ⟨⟩)
  have hnegated : negated nested cs = .error (.noOperand (String.ofList (c :: rest))) := by
    rw [negated, sign?_eq_none h rfl hfront]
    dsimp only
    rw [postfixed, hprimary]
    rfl
  refine ⟨String.ofList (c :: rest), ?_⟩
  rw [orLevel, leftGrouped, andLevel, leftGrouped, notLevel, hnot]
  dsimp only
  rw [comparison, sum, leftGrouped, product, leftGrouped, hnegated]
  rfl

end MarkupTemplate.Host
