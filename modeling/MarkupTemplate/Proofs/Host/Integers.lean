import Mathlib.Data.Rat.Floor
import MarkupTemplate.Host.Runtime
import MarkupTemplate.Proofs.Results

/-!
# Integer operators are exact

Sums, differences, products and negatives of 64-bit integers are the exact integers or an overflow. Floor division
starts from the quotient cut towards zero, which is one too large where the exact quotient is negative and not whole
(`fdiv_eq_tdiv_sub`); the quotient it gives is the floor of the exact one (`floorQuotient?_eq`). The remainder is
corrected by the divisor in the same cases, and the sum never leaves 64 bits since its terms differ in sign
(`toInt_add_of_signsDiffer`).

The function `sum` stops at the ends of the 64-bit range at every step. So it agrees with repeated addition exactly on
the lists whose partial sums all have at most 64 bits (`PartialsFit`); on every other list repeated addition overflows,
and `sum` gives a number all the same, which need not be the exact sum even where this fits.
-/

/-! ## Arithmetic -/

namespace MarkupTemplate

namespace Host

open Numeric

/-- The integer has at most 64 bits. -/
def Fits (n : Int) : Prop :=
  -2 ^ 63 ≤ n ∧ n < 2 ^ 63

variable {a b q : Int64} {n : Int}

theorem fits_toInt (a : Int64) : Fits a.toInt :=
  ⟨a.le_toInt, a.toInt_lt⟩

theorem int64?_of_fits (h : Fits n) : ∃ w : Int64, w.toInt = n ∧ int64? n = some w := by
  have hmax : n ≤ Int64.maxValue.toInt := by
    have := h.2
    rw [Int64.toInt_maxValue]
    omega
  refine ⟨Int64.ofInt n, Int64.toInt_ofInt_of_le h.1 h.2, ?_⟩
  rw [int64?, if_pos ⟨by rw [Int64.toInt_minValue]; exact h.1, hmax⟩]

theorem int64?_of_not_fits (h : ¬ Fits n) : int64? n = none := by
  rw [int64?, if_neg]
  rw [Int64.toInt_minValue, Int64.toInt_maxValue]
  intro hn
  exact h ⟨hn.1, by omega⟩

theorem int64?_eq_some : int64? n = some q ↔ q.toInt = n := by
  by_cases h : Fits n
  · obtain ⟨w, hw, hn⟩ := int64?_of_fits h
    rw [hn, Option.some_inj, ← hw, Int64.toInt_inj, eq_comm]
  · rw [int64?_of_not_fits h]
    refine ⟨nofun, ?_⟩
    rintro rfl
    exact absurd (fits_toInt q) h

/-! ### Cutting and rounding down -/

/-- One of two integers is negative and the other is not. -/
def signDiffers (m n : Int) : Bool :=
  decide (m < 0) != decide (n < 0)

theorem signsDiffer_eq (a b : Int64) : signsDiffer a b = signDiffers a.toInt b.toInt := by
  simp only [signsDiffer, signDiffers, Int64.lt_iff_toInt_lt, Int64.toInt_zero]

/-- Cutting rounds up where there is a remainder and the signs differ. -/
theorem fdiv_eq_tdiv_sub {m : Int} (hn : n ≠ 0) :
    m.fdiv n = m.tdiv n - if m.tmod n != 0 && signDiffers m n then 1 else 0 := by
  rw [Int.fdiv_eq_tdiv]
  by_cases hdvd : n ∣ m
  · simp [hdvd, Int.tmod_eq_zero_of_dvd hdvd]
  · have hmod : m.tmod n ≠ 0 := fun h => hdvd (Int.dvd_of_tmod_eq_zero h)
    rcases lt_or_gt_of_ne hn with hneg | hpos
    · rcases lt_or_ge m 0 with hm | hm
      · simp [hdvd, signDiffers, hneg, hneg.not_ge, hm, hm.not_ge, Int.sign_eq_neg_one_of_neg hneg]
      · simp [hdvd, hmod, signDiffers, hneg, hneg.not_ge, hm, hm.not_gt]
    · rcases lt_or_ge m 0 with hm | hm
      · simp [hdvd, hmod, signDiffers, hpos.le, hpos.le.not_gt, hm, hm.not_ge, Int.sign_eq_one_of_pos hpos]
      · simp [hdvd, signDiffers, hpos.le, hpos.le.not_gt, hm, hm.not_gt]

/-- The remainder of rounding down is the exact rest, and has the sign of the divisor. -/
theorem fmod_eq_tmod_add {m : Int} (hn : n ≠ 0) :
    m.fmod n = m.tmod n + if m.tmod n != 0 && signDiffers m n then n else 0 := by
  have hrest := Int.tmod_def m n
  rw [Int.fmod_def, fdiv_eq_tdiv_sub hn]
  split <;> linarith

theorem floor_div (m : Int) (hn : n ≠ 0) : ⌊(m : ℚ) / n⌋ = m.fdiv n := by
  have hpos {m k : Int} (hk : 0 < k) : ⌊(m : ℚ) / k⌋ = m.fdiv k := by
    obtain ⟨d, rfl⟩ := Int.eq_ofNat_of_zero_le hk.le
    rw [Int.fdiv_eq_ediv_of_nonneg _ hk.le, ← Rat.floor_intCast_div_natCast]
    rfl
  rcases lt_or_gt_of_ne hn with hneg | hn
  · have := hpos (m := -m) (Int.neg_pos.2 hneg)
    rwa [Int.cast_neg, Int.cast_neg, neg_div_neg_eq, Int.neg_fdiv_neg] at this
  · exact hpos hn

/-! ### Steps on words -/

/-- Where there is a remainder, the quotient is smaller than what is divided. -/
theorem natAbs_tdiv_lt {m : Int} (h : m.tmod n ≠ 0) : (m.tdiv n).natAbs < m.natAbs := by
  have hmod : m.natAbs % n.natAbs ≠ 0 := by rwa [← Int.natAbs_tmod, Int.natAbs_ne_zero]
  have hm : 0 < m.natAbs := Nat.pos_of_ne_zero fun hm => hmod (by rw [hm, Nat.zero_mod])
  have hn : n.natAbs ≠ 1 := fun hn => hmod (by rw [hn, Nat.mod_one])
  rw [Int.natAbs_tdiv]
  rcases Nat.eq_zero_or_pos n.natAbs with hzero | hpos
  · rw [hzero]
    show m.natAbs / 0 < m.natAbs
    rwa [Nat.div_zero]
  · exact Nat.div_lt_self hm (by omega)

/-- A remainder that is not zero has the sign of what is divided. -/
theorem tmod_neg_iff {m : Int} (h : m.tmod n ≠ 0) : m.tmod n < 0 ↔ m < 0 := by
  rcases lt_or_ge m 0 with hm | hm
  · have := Int.tmod_nonneg n (Int.neg_nonneg.2 hm.le)
    rw [Int.neg_tmod] at this
    simp only [hm, iff_true]
    omega
  · have := Int.tmod_nonneg n hm
    simp only [hm.not_gt, iff_false]
    omega

theorem bne_zero_eq (a : Int64) : (a != 0) = (a.toInt != 0) := by
  rw [Bool.eq_iff_iff, bne_iff_ne, bne_iff_ne, ne_eq, ne_eq, ← Int64.toInt_inj, Int64.toInt_zero]

theorem toInt_ne_zero (hb : b ≠ 0) : b.toInt ≠ 0 :=
  fun h => hb (Int64.toInt_inj.1 (h.trans Int64.toInt_zero.symm))

/-- The sum of integers that differ in sign has at most 64 bits. -/
theorem toInt_add_of_signsDiffer (h : signsDiffer a b) : (a + b).toInt = a.toInt + b.toInt := by
  have ha := fits_toInt a
  have hb := fits_toInt b
  simp only [signsDiffer_eq, signDiffers, bne_iff_ne, ne_eq, decide_eq_decide, Fits] at h ha hb
  rw [Int64.toInt_add]
  apply Int.bmod_eq_of_le <;> omega

theorem quotient?_eq_some (h : quotient? a b = some q) : b ≠ 0 ∧ q.toInt = a.toInt.tdiv b.toInt := by
  unfold quotient? at h
  split at h
  · cases h
  · next hb => exact ⟨hb, int64?_eq_some.1 h⟩

/-- Where there is a remainder, the quotient fits and has room below it. -/
theorem fits_tdiv_sub_one {m : Int} (hm : Fits m) (h : m.tmod n ≠ 0) : Fits (m.tdiv n) ∧ Fits (m.tdiv n - 1) := by
  have := natAbs_tdiv_lt h
  unfold Fits at *
  omega

theorem floorQuotient?_eq (hb : b ≠ 0) : floorQuotient? a b = int64? ⌊(a.toInt : ℚ) / b.toInt⌋ := by
  rw [floor_div _ (toInt_ne_zero hb), fdiv_eq_tdiv_sub (toInt_ne_zero hb), floorQuotient?, quotient?, if_neg hb,
    bne_zero_eq, Int64.toInt_mod, signsDiffer_eq]
  by_cases hfits : Fits (a.toInt.tdiv b.toInt)
  · obtain ⟨q, hq, hsome⟩ := int64?_of_fits hfits
    rw [hsome, ← hq, Option.bind_eq_bind, Option.bind_some]
    split
    · rfl
    · rw [Int.sub_zero, int64?_eq_some.2 rfl]
  · rw [int64?_of_not_fits hfits, if_neg, Int.sub_zero, int64?_of_not_fits hfits]
    · rfl
    · intro h
      rw [Bool.and_eq_true, bne_iff_ne] at h
      exact hfits (fits_tdiv_sub_one (fits_toInt a) h.1).1

theorem toInt_floorRemainder (hb : b ≠ 0) :
    (floorRemainder a b).toInt = a.toInt - b.toInt * ⌊(a.toInt : ℚ) / b.toInt⌋ := by
  rw [floor_div _ (toInt_ne_zero hb), ← Int.fmod_def, fmod_eq_tmod_add (toInt_ne_zero hb), ← Int64.toInt_mod,
    floorRemainder]
  by_cases hzero : a % b = 0
  · simp [hzero]
  · have hmod : a.toInt.tmod b.toInt ≠ 0 := by
      rw [← Int64.toInt_mod]
      exact toInt_ne_zero hzero
    have hsigns : signsDiffer (a % b) b = signDiffers a.toInt b.toInt := by
      rw [signsDiffer_eq, Int64.toInt_mod, signDiffers, signDiffers, decide_eq_decide.2 (tmod_neg_iff hmod)]
    rw [bne_zero_eq, ← hsigns]
    split
    · next h => exact toInt_add_of_signsDiffer (Bool.and_eq_true_iff.1 h).2
    · rw [Int.add_zero]

/-- The remainder of rounding down is zero or has the sign of the divisor. -/
theorem floorRemainder_sign (hb : b ≠ 0) : floorRemainder a b = 0 ∨ (floorRemainder a b < 0 ↔ b < 0) := by
  have hb' := toInt_ne_zero hb
  rw [← Int64.toInt_inj, Int64.lt_iff_toInt_lt, Int64.lt_iff_toInt_lt, Int64.toInt_zero, toInt_floorRemainder hb,
    floor_div _ hb', ← Int.fmod_def, fmod_eq_tmod_add hb']
  generalize a.toInt = m
  generalize b.toInt = n at hb' ⊢
  by_cases hmod : m.tmod n = 0
  · simp [hmod]
  · have hsign := tmod_neg_iff hmod
    have hlt : (m.tmod n).natAbs < n.natAbs := by
      rw [Int.natAbs_tmod]
      exact Nat.mod_lt _ (by omega)
    right
    split
    · omega
    · next h =>
      simp only [Bool.and_eq_true, bne_iff_ne, ne_eq, hmod, not_false_eq_true, true_and, signDiffers, not_not,
        decide_eq_decide] at h
      rw [Int.add_zero, hsign, h]

/-- Every step of the floor division of `a` by `b` and of its remainder gives in 64 bits what it gives in integers
without bounds. -/
structure StepsFit (a b : Int64) : Prop where
  /-- The remainder of cutting is only taken of a quotient that fits. -/
  quotient : ∀ q, quotient? a b = some q → b ≠ 0 ∧ q.toInt = a.toInt.tdiv b.toInt
  remainder : (a % b).toInt = a.toInt.tmod b.toInt
  lowered : ∀ q, quotient? a b = some q → a % b != 0 → Fits (q.toInt - 1)
  raised : signsDiffer (a % b) b → (a % b + b).toInt = (a % b).toInt + b.toInt

theorem stepsFit (a b : Int64) : StepsFit a b where
  quotient _ h := quotient?_eq_some h
  remainder := Int64.toInt_mod a b
  lowered q h hmod := by
    rw [bne_zero_eq, Int64.toInt_mod, bne_iff_ne] at hmod
    rw [(quotient?_eq_some h).2]
    exact (fits_tdiv_sub_one (fits_toInt a) hmod).2
  raised := toInt_add_of_signsDiffer

/-! ### Operators -/

/-- The result is the exact integer `n` if this has at most 64 bits, and the fault otherwise. -/
def IsExactOr (fault : EvalFault) (n : Int) (result : Except EvalFault Value) : Prop :=
  (∃ w : Int64, w.toInt = n ∧ result = .ok (.int w)) ∨ (¬ Fits n ∧ result = .error fault)

theorem isExactOr_fitted (op : BinaryOp) (n : Int) :
    IsExactOr (.mismatch (.overflow op)) n (fitted op (int64? n)) := by
  by_cases h : Fits n
  · obtain ⟨w, hw, hn⟩ := int64?_of_fits h
    exact .inl ⟨w, hw, by rw [hn]; rfl⟩
  · exact .inr ⟨h, by rw [int64?_of_not_fits h]; rfl⟩

theorem isExactOr_negate (m : Int64) :
    IsExactOr (.mismatch .negationOverflow) (-m.toInt) (negate (.int m)) := by
  unfold negate
  by_cases h : Fits (-m.toInt)
  · obtain ⟨w, hw, hn⟩ := int64?_of_fits h
    exact .inl ⟨w, hw, by simp only [hn]⟩
  · exact .inr ⟨h, by simp only [int64?_of_not_fits h]⟩

variable {left right : Value}

/-- An arithmetic operator on two integers is one on their words. -/
theorem binary_eq_integerArithmetic {op : BinaryOp} (ha : integer? left = some a) (hb : integer? right = some b)
    (hop : op ∈ [.add, .sub, .mul, .div, .floorDiv, .mod]) :
    binary op left right =
      integerArithmetic op a b (.mismatch (.unsupported op left.kind right.kind)) := by
  have harith (op : BinaryOp) : arithmetic op left right =
      integerArithmetic op a b (.mismatch (.unsupported op left.kind right.kind)) := by
    rw [arithmetic, ha, hb]
  have hadd : add left right = arithmetic .add left right := by
    unfold add
    split
    · cases ha
    · cases ha
    · rfl
  simp only [List.mem_cons, List.not_mem_nil, or_false] at hop
  rcases hop with rfl | rfl | rfl | rfl | rfl | rfl
  · exact hadd.trans (harith .add)
  all_goals exact harith _

end Host

namespace HostRuntime

open Host

variable {libraries : List Library} {scope : Scope} {l r : HostExpr} {left right : Value} {a b : Int64}

/-- Operators on integers or truth values give the exact integer, or a type error where it overflows or the divisor is
zero. With another divisor no step on the way to a quotient or a remainder overflows. -/
theorem integers_exact (hl : eval libraries scope l = .ok left) (hr : eval libraries scope r = .ok right)
    (ha : integer? left = some a) (hb : integer? right = some b) :
    IsExactOr (.mismatch (.overflow .add)) (a.toInt + b.toInt) (eval libraries scope (.binary .add l r)) ∧
    IsExactOr (.mismatch (.overflow .sub)) (a.toInt - b.toInt) (eval libraries scope (.binary .sub l r)) ∧
    IsExactOr (.mismatch (.overflow .mul)) (a.toInt * b.toInt) (eval libraries scope (.binary .mul l r)) ∧
    (∀ n, left = .int n →
      IsExactOr (.mismatch .negationOverflow) (-n.toInt) (eval libraries scope (.unary .neg l))) ∧
    (b ≠ 0 →
      IsExactOr (.mismatch (.overflow .floorDiv)) ⌊(a.toInt : ℚ) / b.toInt⌋
        (eval libraries scope (.binary .floorDiv l r)) ∧
      (∃ w : Int64, eval libraries scope (.binary .mod l r) = .ok (.int w) ∧
        w.toInt = a.toInt - b.toInt * ⌊(a.toInt : ℚ) / b.toInt⌋ ∧ (w = 0 ∨ (w < 0 ↔ b < 0))) ∧
      StepsFit a b) ∧
    (b = 0 → ∀ op ∈ [.div, .floorDiv, .mod],
      eval libraries scope (.binary op l r) = .error (.mismatch .divisionByZero)) := by
  have heval (op : BinaryOp) (hop : op ∈ [.add, .sub, .mul, .div, .floorDiv, .mod]) :
      eval libraries scope (.binary op l r) =
        integerArithmetic op a b (.mismatch (.unsupported op left.kind right.kind)) := by
    rw [← binary_eq_integerArithmetic ha hb hop, eval, hl, hr]
    simp only [List.mem_cons, List.not_mem_nil, or_false] at hop
    rcases hop with rfl | rfl | rfl | rfl | rfl | rfl <;> rfl
  refine ⟨?_, ?_, ?_, ?_, fun hzero => ⟨?_, ?_, stepsFit a b⟩, ?_⟩
  · rw [heval .add (by decide)]
    exact isExactOr_fitted .add _
  · rw [heval .sub (by decide)]
    exact isExactOr_fitted .sub _
  · rw [heval .mul (by decide)]
    exact isExactOr_fitted .mul _
  · rintro n rfl
    rw [eval, hl]
    exact isExactOr_negate n
  · rw [heval .floorDiv (by decide), integerArithmetic]
    dsimp only
    rw [if_neg hzero, floorQuotient?_eq hzero]
    exact isExactOr_fitted .floorDiv _
  · refine ⟨floorRemainder a b, ?_, toInt_floorRemainder hzero, floorRemainder_sign hzero⟩
    rw [heval .mod (by decide), integerArithmetic]
    dsimp only
    rw [if_neg hzero]
  · intro hzero op hop
    rw [heval op (by simp only [List.mem_cons] at hop ⊢; tauto)]
    simp only [List.mem_cons, List.not_mem_nil, or_false] at hop
    rcases hop with rfl | rfl | rfl <;> exact if_pos hzero

theorem integers_exact_smallest :
    eval [] default (.literal (.int Int64.minValue)) = .ok (.int Int64.minValue) ∧
    eval [] default (.literal (.int (-1))) = .ok (.int (-1)) ∧
    eval [] default (.binary .floorDiv (.literal (.int Int64.minValue)) (.literal (.int (-1)))) =
      .error (.mismatch (.overflow .floorDiv)) ∧
    eval [] default (.binary .mod (.literal (.int Int64.minValue)) (.literal (.int (-1)))) = .ok (.int 0) := by
  have hl : eval [] default (.literal (.int Int64.minValue)) = .ok (.int Int64.minValue) := by rw [eval]
  have hr : eval [] default (.literal (.int (-1))) = .ok (.int (-1)) := by rw [eval]
  have hfloor : ⌊(Int64.minValue.toInt : ℚ) / (-1 : Int64).toInt⌋ = 2 ^ 63 := by
    rw [floor_div _ (by decide)]
    decide
  obtain ⟨hquotient, ⟨w, hw, hmod, -⟩, -⟩ := (integers_exact hl hr rfl rfl).2.2.2.2.1 (by decide)
  refine ⟨hl, hr, ?_, ?_⟩
  · rcases hquotient with ⟨w, hw, -⟩ | ⟨-, hfails⟩
    · have hlt := w.toInt_lt
      rw [hw, hfloor] at hlt
      exact absurd hlt (lt_irrefl _)
    · exact hfails
  · have hzero : w = 0 := Int64.toInt_inj.1 (by rw [hmod, hfloor]; decide)
    rw [hw, hzero]

end HostRuntime

end MarkupTemplate

/-! ## Sums and repeated addition -/

namespace MarkupTemplate

namespace Host

open Numeric

/-- The integers among the items of a list; truth values count as 0 and 1. -/
def integers (items : List Value) : List Int :=
  (items.filterMap integer?).map Int64.toInt

/-- The sum of a total and any first numbers of a list has at most 64 bits. -/
def PartialsFit (total : Int) (ns : List Int) : Prop :=
  ∀ part, part <+: ns → Fits (total + part.sum)

/-- A total after one more number, stopped at the ends of the range. -/
def addStopped (total n : Int) : Int :=
  max (-2 ^ 63) (min (total + n) (2 ^ 63 - 1))

variable {items : List Value} {ns : List Int} {total n : Int}

theorem addStopped_of_fits (h : Fits (total + n)) : addStopped total n = total + n := by
  unfold Fits at h
  unfold addStopped
  omega

theorem toInt_saturate (total n : Int) : (saturate (total + n)).toInt = addStopped total n := by
  unfold saturate addStopped
  rw [Int64.toInt_minValue, Int64.toInt_maxValue]
  split_ifs with hlow hup
  · rw [Int64.toInt_minValue]
    omega
  · rw [Int64.toInt_maxValue]
    omega
  · rw [Int64.toInt_ofInt_of_le (by omega) (by omega)]
    omega

theorem PartialsFit.fits (h : PartialsFit total ns) : Fits total := by
  simpa using h [] (List.nil_prefix ..)

theorem partialsFit_cons : PartialsFit total (n :: ns) ↔ Fits total ∧ PartialsFit (total + n) ns := by
  constructor
  · intro h
    refine ⟨by simpa using h [] (List.nil_prefix ..), fun part hpart => ?_⟩
    have := h (n :: part) ((List.prefix_cons_inj n).2 hpart)
    rwa [List.sum_cons, ← Int.add_assoc] at this
  · rintro ⟨htotal, hrest⟩ part hpart
    rcases List.prefix_cons_iff.1 hpart with rfl | ⟨part, rfl, hpart'⟩
    · simpa using htotal
    · rw [List.sum_cons, ← Int.add_assoc]
      exact hrest part hpart'

theorem partialsFit_nil : PartialsFit total [] ↔ Fits total := by
  constructor
  · intro h
    simpa using h [] (List.nil_prefix ..)
  · intro h part hpart
    rw [List.prefix_nil.1 hpart]
    simpa using h

theorem foldl_addStopped (h : PartialsFit total ns) : ns.foldl addStopped total = total + ns.sum := by
  induction ns generalizing total with
  | nil => simp
  | cons n ns ih =>
    have hrest := (partialsFit_cons.1 h).2
    rw [List.foldl_cons, addStopped_of_fits hrest.fits, ih hrest, List.sum_cons, Int.add_assoc]

section Runs

theorem integers_cons {v : Value} {m : Int64} (hm : integer? v = some m) (items : List Value) :
    integers (v :: items) = m.toInt :: integers items := by
  simp [integers, hm]

theorem binary_add {v : Value} {m : Int64} (total : Int64) (hm : integer? v = some m) :
    binary .add (.int total) v = fitted .add (int64? (total.toInt + m.toInt)) :=
  binary_eq_integerArithmetic rfl hm (by decide)

/-- Repeated addition gives the exact sum as long as no partial sum overflows. -/
theorem foldlM_add (hitems : ∀ v ∈ items, (integer? v).isSome) (total : Int64) :
    (PartialsFit total.toInt (integers items) ∧ ∃ w : Int64, w.toInt = total.toInt + (integers items).sum ∧
      items.foldlM (binary .add) (.int total) = .ok (.int w)) ∨
    (¬ PartialsFit total.toInt (integers items) ∧
      items.foldlM (binary .add) (.int total) = .error (.mismatch (.overflow .add))) := by
  induction items generalizing total with
  | nil => exact .inl ⟨partialsFit_nil.2 (fits_toInt total), total, by simp [integers], rfl⟩
  | cons v items ih =>
    obtain ⟨hv, hitems⟩ := List.forall_mem_cons.1 hitems
    obtain ⟨m, hm⟩ := Option.isSome_iff_exists.1 hv
    rw [integers_cons hm, partialsFit_cons, List.foldlM_cons, binary_add total hm, List.sum_cons, ← Int.add_assoc]
    by_cases hfits : Fits (total.toInt + m.toInt)
    · obtain ⟨next, hnext, hsome⟩ := int64?_of_fits hfits
      rw [hsome, ← hnext]
      rcases ih hitems next with ⟨hrest, hrun⟩ | ⟨hrest, hrun⟩
      · exact .inl ⟨⟨fits_toInt total, hrest⟩, hrun⟩
      · exact .inr ⟨fun h => hrest h.2, hrun⟩
    · rw [int64?_of_not_fits hfits]
      exact .inr ⟨fun h => hfits h.2.fits, rfl⟩

/-- `sum` goes on from the end of the range where it was stopped. -/
theorem foldlM_saturate (hitems : ∀ v ∈ items, (integer? v).isSome) (total : Int64) :
    ∃ w : Int64, w.toInt = (integers items).foldl addStopped total.toInt ∧
      items.foldlM (fun (total : Int64) item => do
        return saturate (total.toInt + (← integerArgument .sum item).toInt)) total = .ok w := by
  induction items generalizing total with
  | nil => exact ⟨total, rfl, rfl⟩
  | cons v items ih =>
    obtain ⟨hv, hitems⟩ := List.forall_mem_cons.1 hitems
    obtain ⟨m, hm⟩ := Option.isSome_iff_exists.1 hv
    obtain ⟨w, hw, hrun⟩ := ih hitems (saturate (total.toInt + m.toInt))
    refine ⟨w, ?_, ?_⟩
    · rw [hw, integers_cons hm, List.foldl_cons, toInt_saturate]
    · rw [List.foldlM_cons, integerArgument, hm]
      exact hrun

theorem sumOf_integers (hitems : ∀ v ∈ items, (integer? v).isSome) :
    ∃ w : Int64, w.toInt = (integers items).foldl addStopped 0 ∧ sumOf [.list items] = .ok (.int w) := by
  obtain ⟨w, hw, hrun⟩ := foldlM_saturate hitems 0
  refine ⟨w, hw, ?_⟩
  have hall : items.all (fun item => (integer? item).isSome) = true := List.all_eq_true.2 hitems
  show (if items.all (fun item => (integer? item).isSome) then _ else _) = _
  rw [if_pos hall, hrun]
  rfl

end Runs

end Host

namespace HostRuntime

open Host

variable {libraries : List Library} {scope : Scope} {e : HostExpr} {es : List HostExpr} {items : List Value}

/-- A chain of additions adds the values from left to right. -/
theorem eval_foldl_add (hes : evalAll libraries scope es = .ok items) (e : HostExpr) :
    eval libraries scope (es.foldl (.binary .add) e) =
      eval libraries scope e >>= fun total => items.foldlM (Host.binary .add) total := by
  induction es generalizing items e with
  | nil =>
    rw [evalAll] at hes
    cases hes
    rw [List.foldl_nil]
    cases eval libraries scope e <;> rfl
  | cons first es ih =>
    rw [evalAll] at hes
    obtain ⟨v, hv, hes⟩ := bind_eq_ok.1 hes
    obtain ⟨vs, hvs, hes⟩ := bind_eq_ok.1 hes
    cases hes
    rw [List.foldl_cons, ih hvs, eval, hv]
    cases eval libraries scope e <;> rfl

/-- `sum` and repeated addition agree exactly where every partial sum has at most 64 bits. Elsewhere the operator
overflows, and `sum` stops at the ends of the range. -/
theorem sum_eq_repeated_iff (hsum : findFunction? libraries "sum" = some .sum)
    (he : eval libraries scope e = .ok (.list items)) (hes : evalAll libraries scope es = .ok items)
    (hitems : ∀ v ∈ items, (integer? v).isSome) :
    (eval libraries scope (.call "sum" [e]) =
      eval libraries scope (es.foldl (.binary .add) (.literal (.int 0))) ↔ PartialsFit 0 (integers items)) ∧
    (PartialsFit 0 (integers items) → ∃ w : Int64, w.toInt = (integers items).sum ∧
      eval libraries scope (.call "sum" [e]) = .ok (.int w)) ∧
    (¬ PartialsFit 0 (integers items) →
      eval libraries scope (es.foldl (.binary .add) (.literal (.int 0))) = .error (.mismatch (.overflow .add)) ∧
      ∃ w : Int64, w.toInt = (integers items).foldl addStopped 0 ∧
        eval libraries scope (.call "sum" [e]) = .ok (.int w)) := by
  obtain ⟨stopped, hstopped, hcall⟩ := sumOf_integers hitems
  have hcall : eval libraries scope (.call "sum" [e]) = .ok (.int stopped) := by
    rw [eval, hsum]
    simp only [evalAll, he]
    exact hcall
  have hadd : eval libraries scope (es.foldl (.binary .add) (.literal (.int 0))) =
      items.foldlM (Host.binary .add) (.int 0) := by
    rw [eval_foldl_add hes, eval]
    rfl
  rw [hcall, hadd]
  have hrepeated := foldlM_add hitems 0
  rw [Int64.toInt_zero, Int.zero_add] at hrepeated
  rcases hrepeated with ⟨hfits, w, hw, hrun⟩ | ⟨hfits, hrun⟩
  · have hexact : stopped.toInt = (integers items).sum := by
      rw [hstopped, foldl_addStopped hfits, Int.zero_add]
    have : stopped = w := Int64.toInt_inj.1 (hexact.trans hw.symm)
    rw [hrun, this]
    exact ⟨iff_of_true rfl hfits, fun _ => ⟨w, this ▸ hexact, rfl⟩, fun h => absurd hfits h⟩
  · rw [hrun]
    exact ⟨iff_of_false nofun hfits, fun h => absurd h hfits, fun _ => ⟨rfl, stopped, hstopped, rfl⟩⟩

/-- The sum is back in the range after the third number, and every partial sum is in it. -/
theorem sum_eq_repeated_threeNumbers :
    let items : List Value := [.int Int64.maxValue, .int (-1), .bool true]
    findFunction? [.core, .math] "sum" = some .sum ∧ (∀ v ∈ items, (integer? v).isSome) ∧
    PartialsFit 0 (integers items) ∧
    eval [.core, .math] default (.call "sum" [.literal (.list items)]) =
      eval [.core, .math] default ((items.map HostExpr.literal).foldl (.binary .add) (.literal (.int 0))) := by
  intro items
  have hsum : findFunction? [.core, .math] "sum" = some .sum := by decide +kernel
  have hitems : ∀ v ∈ items, (integer? v).isSome := by decide
  have hfits : PartialsFit 0 (integers items) := by
    show PartialsFit 0 [2 ^ 63 - 1, -1, 1]
    simp only [partialsFit_cons, partialsFit_nil, Fits]
    decide
  refine ⟨hsum, hitems, hfits, ?_⟩
  exact (sum_eq_repeated_iff hsum (by rw [eval]) (by simp only [List.map, evalAll, eval, items]; rfl) hitems).1.2 hfits

/-- `sum` forgets what was cut off at the end of the range: neither is its result the exact one, the greatest integer,
nor does it overflow like repeated addition. -/
theorem sum_ne_repeated :
    let items : List Value := [.int Int64.maxValue, .int 1, .int (-1)]
    eval [.core, .math] default (.call "sum" [.literal (.list items)]) = .ok (.int (Int64.maxValue - 1)) ∧
    eval [.core, .math] default ((items.map HostExpr.literal).foldl (.binary .add) (.literal (.int 0))) =
      .error (.mismatch (.overflow .add)) :=
  ⟨rfl, rfl⟩

end HostRuntime

end MarkupTemplate
