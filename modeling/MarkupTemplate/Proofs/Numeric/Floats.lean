import Mathlib
import MarkupTemplate.Host.Arithmetic

/-!
# Floats and their order

`compareFloats` is the comparison of the number format. Of two floats that are numbers it gives an order, and the
opposite one the other way round (`compareFloats_swap`). A whole number that 53 binary digits can write has a float
without rounding (`Denotes`); such floats are kept when they are packed into bits (`Denotes.unpack_pack`), and are
ordered like the numbers (`compare_of_denotes`).

`nearest n` is the number with 53 binary digits that is nearest to `n`, of two the one with an even last digit. It is
`n` itself up to `2 ^ 53`, and never turns the order of two numbers around (`nearest_mono`). The float of a 64-bit
integer is the one of `nearest n` (`denotes_ofInt64`): conversion shifts the mantissa to 53 digits, and the two bits
behind it tell on which side of the half the rest lies (`Holds`). So integers are compared as their nearest floats are
(`compareFloats_ofInt64`).
-/

/-! ## The order of floats -/

namespace MarkupTemplate.Numeric

open Float.Model
open Float.Model.UnpackedFloat (Sign)

variable {x y : UnpackedFloat}

theorem compare_swap (x y : UnpackedFloat) : y.compare x = (x.compare y).map Ordering.swap := by
  cases x with
  | notANumber => cases y <;> rfl
  | infinity s =>
    cases y with
    | infinity t => cases s <;> cases t <;> rfl
    | _ => cases s <;> rfl
  | zero s =>
    cases y with
    | notANumber => rfl
    | zero t => rfl
    | infinity t => cases t <;> rfl
    | finite t m e hm => cases t <;> rfl
  | finite s m e hm =>
    cases y with
    | notANumber => cases s <;> rfl
    | infinity t => cases s <;> cases t <;> rfl
    | zero t => cases s <;> rfl
    | finite t m' e' hm' =>
      cases s <;> cases t <;>
        simp [UnpackedFloat.compare, Ordering.swap_then, Int.compare_swap, Nat.compare_swap]

theorem isSome_compare (hx : x.isNaN = false) (hy : y.isNaN = false) : (x.compare y).isSome := by
  unfold UnpackedFloat.compare
  split <;> first | rfl | contradiction

open Host

theorem lt_iff_compare {x y : Float} : x < y ↔ x.toModel.compare y.toModel = some .lt := by
  show decide (x.toModel.unpack.lt y.toModel.unpack = true) = true ↔ _
  rw [decide_eq_true_iff]
  exact beq_iff_eq

theorem beq_iff_compare {x y : Float} : x == y ↔ x.toModel.compare y.toModel = some .eq := by
  show (x.toModel.unpack.compare y.toModel.unpack == some .eq) = true ↔ _
  exact beq_iff_eq

theorem compareFloats_eq (x y : Float) : compareFloats x y = x.toModel.compare y.toModel := by
  have hswap : y.toModel.compare x.toModel = (x.toModel.compare y.toModel).map Ordering.swap := compare_swap _ _
  simp only [compareFloats, lt_iff_compare, beq_iff_compare, hswap]
  rcases x.toModel.compare y.toModel with _ | o
  · rfl
  · cases o <;> rfl

theorem compareFloats_swap (x y : Float) : compareFloats y x = (compareFloats x y).map Ordering.swap := by
  rw [compareFloats_eq, compareFloats_eq]
  exact compare_swap _ _

theorem isSome_compareFloats {x y : Float} (hx : x.isNaN = false) (hy : y.isNaN = false) :
    (compareFloats x y).isSome := by
  rw [compareFloats_eq]
  exact isSome_compare hx hy

theorem lt_iff_compareFloats {x y : Float} : x < y ↔ compareFloats x y = some .lt := by
  rw [compareFloats_eq, lt_iff_compare]

theorem beq_iff_compareFloats {x y : Float} : x == y ↔ compareFloats x y = some .eq := by
  rw [compareFloats_eq, beq_iff_compare]

/-! ### Floats of whole numbers -/

/-- The float of a number that 53 binary digits can write. The last digit of the mantissa counts `2 ^ E / 2 ^ 52`. -/
inductive Denotes : UnpackedFloat → Int → Prop
  | zero (s : Sign) : Denotes (.zero s) 0
  | finite (s : Sign) {m n E : Nat} {e : Int} {hpos : 0 < m} (hm : 2 ^ 52 ≤ m) (hlt : m < 2 ^ 53) (he : e + 52 = E)
    (hE : E ≤ 1023) (h : n * 2 ^ 52 = m * 2 ^ E) : Denotes (.finite s m e hpos) (s.apply n)

theorem log2_of_lt {m : Nat} (hm : 2 ^ 52 ≤ m) (hlt : m < 2 ^ 53) : m.log2 = 52 := by
  have hne : m ≠ 0 := by omega
  have := (Nat.le_log2 hne).2 hm
  have := (Nat.log2_lt hne).2 hlt
  omega

theorem Denotes.isNaN_eq {n : Int} (h : Denotes x n) : x.isNaN = false := by
  cases h <;> rfl

theorem Denotes.neg {n : Int} (h : Denotes x n) : Denotes x.neg (-n) := by
  cases h with
  | zero s => exact .zero (-s)
  | @finite s m n E e hpos hm hlt he hE h =>
    have := @Denotes.finite (-s) m n E e hpos hm hlt he hE h
    cases s with
    | positive => exact this
    | negative => rwa [Sign.apply, Int.neg_neg]

/-! ### Packing -/

section Packing

open UnpackedFloat

/-- The leading digit is not stored. -/
theorem toNat_leadingDigit {m : Nat} (hm : 2 ^ 52 ≤ m) (hlt : m < 2 ^ 53) : (1#1 ++ BitVec.ofNat 52 m).toNat = m := by
  obtain ⟨r, rfl⟩ := Nat.exists_eq_add_of_le hm
  rw [BitVec.toNat_append, ← Nat.shiftLeft_add_eq_or_of_lt (BitVec.isLt _), BitVec.toNat_ofNat, BitVec.toNat_ofNat,
    Nat.shiftLeft_eq, Nat.add_mod_left, Nat.mod_eq_of_lt (by decide), Nat.one_mul, Nat.mod_eq_of_lt (by omega)]

theorem Denotes.unpack_pack {n : Int} (h : Denotes x n) : (Float.Model.pack x).unpack = x := by
  cases h with
  | zero s => cases s <;> rfl
  | @finite s m n E e hpos hm hlt he hE h =>
    have hexp : (BitVec.ofNat 11 (E + 1023)).toNat = E + 1023 := by
      rw [BitVec.toNat_ofNat, Nat.mod_eq_of_lt (by omega)]
    have hne {v : BitVec 11} (hv : v.toNat = 0 ∨ v.toNat = 2047) : BitVec.ofNat 11 (E + 1023) ≠ v := by
      rintro rfl
      omega
    have hpack : UnpackedFloat.pack .binary64 (.finite s m e hpos) =
        packComponents .binary64 s (BitVec.ofNat 11 (E + 1023)) (BitVec.ofNat 52 m) := by
      have hbiased : (e + (1023 : Nat) + (52 : Nat)).toNat = E + 1023 := by omega
      unfold UnpackedFloat.pack
      show (if 2048 ≤ (e + (1023 : Nat) + (52 : Nat)).toNat + 1 then _ else if m.log2 + 1 = 53 then
        packComponents .binary64 s (BitVec.ofNat 11 (e + (1023 : Nat) + (52 : Nat)).toNat) _ else _) = _
      rw [hbiased, if_neg (by omega), if_pos (by rw [log2_of_lt hm hlt])]
    have hunbiased : ((E + 1023 : Nat) : Int) - ((Format.binary64.exponentBias : Nat) + (52 : Nat)) = e := by
      show ((E + 1023 : Nat) : Int) - ((1023 : Nat) + (52 : Nat)) = e
      omega
    show UnpackedFloat.unpack .binary64 (UnpackedFloat.pack .binary64 (.finite s m e hpos)) = _
    rw [hpack, UnpackedFloat.unpack]
    simp only [unpackMantissa_packComponents, unpackExponent_packComponents,
      unpackSign_packComponents, Sign.ofBitVec_toBitVec, hexp,
      toNat_leadingDigit hm hlt]
    rw [if_neg (hne (.inr rfl)), if_neg (hne (.inl rfl))]
    simp only [hunbiased]

theorem Denotes.pack {n : Int} (h : Denotes x n) : Denotes (Float.Model.pack x).unpack n := by
  rwa [h.unpack_pack]

end Packing

/-! ### The order of the numbers -/

theorem compare_cast (m n : Nat) : compare (m : Int) n = compare m n := by
  rw [← cmp_eq_compare, ← cmp_eq_compare]
  exact Nat.strictMono_cast.cmp_map_eq m n

theorem compare_neg_neg (a b : Int) : compare (-a) (-b) = (compare a b).swap := by
  have hneg : StrictAnti fun n : Int => -n := fun _ _ h => Int.neg_lt_neg h
  rw [← cmp_eq_compare, ← cmp_eq_compare, cmp_swap]
  exact hneg.cmp_map_eq a b

section Scaled

variable {m m' n n' E E' : Nat}

theorem lt_of_scaled (hlt : m < 2 ^ 53) (hm' : 2 ^ 52 ≤ m') (h : n * 2 ^ 52 = m * 2 ^ E)
    (h' : n' * 2 ^ 52 = m' * 2 ^ E') (hE : E < E') : n < n' := by
  refine Nat.lt_of_mul_lt_mul_right (a := 2 ^ 52) ?_
  calc
    n * 2 ^ 52 = m * 2 ^ E := h
    _ < 2 ^ 53 * 2 ^ E := Nat.mul_lt_mul_of_pos_right hlt (Nat.two_pow_pos E)
    _ = 2 ^ 52 * 2 ^ (E + 1) := by ring
    _ ≤ m' * 2 ^ E' := Nat.mul_le_mul hm' (Nat.pow_le_pow_right (by decide) hE)
    _ = n' * 2 ^ 52 := h'.symm

/-- The greater exponent decides, and of equal exponents the greater mantissa. -/
theorem compare_scaled (hm : 2 ^ 52 ≤ m) (hlt : m < 2 ^ 53) (hm' : 2 ^ 52 ≤ m') (hlt' : m' < 2 ^ 53)
    (h : n * 2 ^ 52 = m * 2 ^ E) (h' : n' * 2 ^ 52 = m' * 2 ^ E') :
    (compare E E').then (compare m m') = compare n n' := by
  rcases Nat.lt_trichotomy E E' with hE | rfl | hE
  · rw [Nat.compare_eq_lt.2 hE, Nat.compare_eq_lt.2 (lt_of_scaled hlt hm' h h' hE)]
    rfl
  · have hscale (E : Nat) : StrictMono (· * 2 ^ E) := fun _ _ h => Nat.mul_lt_mul_of_pos_right h (Nat.two_pow_pos E)
    have hn := (hscale 52).cmp_map_eq n n'
    simp only [h, h', (hscale E).cmp_map_eq m m'] at hn
    rw [Nat.compare_eq_eq.2 rfl, Ordering.eq_then, ← cmp_eq_compare, ← cmp_eq_compare, hn]
  · rw [Nat.compare_eq_gt.2 hE, Nat.compare_eq_gt.2 (lt_of_scaled hlt' hm h' h hE)]
    rfl

theorem pos_of_scaled (hm : 0 < m) (h : n * 2 ^ 52 = m * 2 ^ E) : 0 < n := by
  have := Nat.mul_pos hm (Nat.two_pow_pos E)
  exact Nat.pos_of_mul_pos_right (h ▸ this)

end Scaled

theorem compare_of_denotes {a b : Int} (hx : Denotes x a) (hy : Denotes y b) : x.compare y = some (compare a b) := by
  have hpos {n : Nat} (hn : 0 < n) : -(n : Int) < 0 ∧ (0 : Int) < n := by omega
  cases hx with
  | zero s =>
    cases hy with
    | zero t => rfl
    | @finite t m' n' E' e' hpos' hm' hlt' he' hE' h' =>
      have hn := hpos (pos_of_scaled hpos' h')
      cases t with
      | positive => exact congrArg some (compare_lt_iff_lt.2 hn.2).symm
      | negative => exact congrArg some (compare_gt_iff_gt.2 hn.1).symm
  | @finite s m n E e hpos₁ hm hlt he hE h =>
    have hn := hpos (pos_of_scaled hpos₁ h)
    cases hy with
    | zero t =>
      cases s with
      | positive => exact congrArg some (compare_gt_iff_gt.2 hn.2).symm
      | negative => exact congrArg some (compare_lt_iff_lt.2 hn.1).symm
    | @finite t m' n' E' e' hpos' hm' hlt' he' hE' h' =>
      have hn' := hpos (pos_of_scaled hpos' h')
      have hsame : (compare e e').then (compare m m') = compare (n : Int) n' := by
        have hshift : StrictMono fun e : Int => e + 52 := fun a b h => by dsimp only; omega
        have hexp := hshift.cmp_map_eq e e'
        rw [he, he', cmp_eq_compare, cmp_eq_compare, compare_cast] at hexp
        rw [← hexp, compare_scaled hm hlt hm' hlt' h h', compare_cast]
      cases s <;> cases t
      · exact congrArg some ((congrArg Ordering.swap hsame).trans (compare_neg_neg _ _).symm)
      · exact congrArg some (compare_lt_iff_lt.2 (hn.1.trans hn'.2)).symm
      · exact congrArg some (compare_gt_iff_gt.2 (hn'.1.trans hn.2)).symm
      · exact congrArg some hsame

end MarkupTemplate.Numeric

/-! ## The float nearest to an integer -/

namespace MarkupTemplate.Numeric

/-- `n / 2 ^ k` rounded to the nearest whole number, a half to the even one. -/
def halfToEven (n k : Nat) : Nat :=
  let below := n / 2 ^ k
  let rest := 2 * (n % 2 ^ k)
  if rest < 2 ^ k then below else if rest = 2 ^ k then below + below % 2 else below + 1

/-- The number with 53 binary digits that is nearest to a natural number. -/
def nearestNat (n : Nat) : Nat :=
  halfToEven n (n.log2 - 52) * 2 ^ (n.log2 - 52)

/-- The number with 53 binary digits that is nearest to an integer, of two the one with an even last digit. -/
def nearest : Int → Int
  | .ofNat n => nearestNat n
  | .negSucc n => -nearestNat (n + 1)

section Rounding

variable {m n : Nat}

theorem halfToEven_zero (n : Nat) : halfToEven n 0 = n := by
  simp [halfToEven, Nat.mod_one]

theorem halfToEven_mul (n j k : Nat) : halfToEven (n * 2 ^ j) (k + j) = halfToEven n k := by
  have hpos := Nat.two_pow_pos j
  have hrest : 2 * (n * 2 ^ j % 2 ^ (k + j)) = 2 * (n % 2 ^ k) * 2 ^ j := by
    rw [Nat.pow_add, Nat.mul_mod_mul_right, Nat.mul_assoc]
  unfold halfToEven
  dsimp only
  rw [hrest, Nat.pow_add, Nat.mul_div_mul_right _ _ hpos]
  simp only [Nat.mul_lt_mul_right hpos, Nat.mul_left_inj hpos.ne']

theorem div_le_halfToEven (n k : Nat) : n / 2 ^ k ≤ halfToEven n k := by
  unfold halfToEven
  dsimp only
  split_ifs <;> omega

theorem halfToEven_le (n k : Nat) : halfToEven n k ≤ n / 2 ^ k + 1 := by
  unfold halfToEven
  dsimp only
  split_ifs <;> omega

theorem halfToEven_mono (k : Nat) (h : m ≤ n) : halfToEven m k ≤ halfToEven n k := by
  have hq := Nat.div_le_div_right (c := 2 ^ k) h
  have hm := Nat.div_add_mod m (2 ^ k)
  have hn := Nat.div_add_mod n (2 ^ k)
  unfold halfToEven
  dsimp only
  rcases hq.eq_or_lt with heq | hlt
  · rw [heq] at hm ⊢
    split_ifs <;> omega
  · split_ifs <;> omega

theorem two_pow_le_halfToEven (hn : n ≠ 0) (h : 52 ≤ n.log2) : 2 ^ 52 ≤ halfToEven n (n.log2 - 52) := by
  refine le_trans ?_ (div_le_halfToEven _ _)
  rw [Nat.le_div_iff_mul_le (Nat.two_pow_pos _), ← Nat.pow_add, Nat.add_sub_cancel' h]
  exact Nat.log2_self_le hn

theorem halfToEven_le_two_pow (n : Nat) : halfToEven n (n.log2 - 52) ≤ 2 ^ 53 := by
  refine (halfToEven_le _ _).trans (Nat.div_lt_of_lt_mul ?_)
  rw [← Nat.pow_add]
  exact lt_of_lt_of_le Nat.lt_log2_self (Nat.pow_le_pow_right (by decide) (by omega))

theorem nearestNat_of_le (h : n ≤ 2 ^ 53) : nearestNat n = n := by
  rcases h.eq_or_lt with rfl | hlt
  · decide
  have hlog : n.log2 - 52 = 0 := by
    rcases Nat.eq_zero_or_pos n with rfl | hn
    · rfl
    · have := (Nat.log2_lt hn.ne').2 hlt
      omega
  rw [nearestNat, hlog, halfToEven_zero, Nat.pow_zero, Nat.mul_one]

/-- Where the lengths differ, a power of two lies between the results. -/
theorem nearestNat_mono (h : m ≤ n) : nearestNat m ≤ nearestNat n := by
  rcases Nat.eq_zero_or_pos m with rfl | hm
  · exact Nat.zero_le _
  have hlog : m.log2 ≤ n.log2 := (Nat.le_log2 (by omega)).2 ((Nat.log2_self_le hm.ne').trans h)
  unfold nearestNat
  generalize hj : m.log2 - 52 = j
  generalize hk : n.log2 - 52 = k
  rcases Nat.eq_or_lt_of_le (show j ≤ k by omega) with rfl | hlt
  · exact Nat.mul_le_mul_right _ (halfToEven_mono _ h)
  · calc
      halfToEven m j * 2 ^ j ≤ 2 ^ 53 * 2 ^ j := Nat.mul_le_mul_right _ (hj ▸ halfToEven_le_two_pow m)
      _ = 2 ^ 52 * 2 ^ (j + 1) := by ring
      _ ≤ 2 ^ 52 * 2 ^ k := Nat.mul_le_mul_left _ (Nat.pow_le_pow_right (by decide) hlt)
      _ ≤ halfToEven n k * 2 ^ k :=
        Nat.mul_le_mul_right _ (hk ▸ two_pow_le_halfToEven (by omega) (by omega))

end Rounding

theorem nearest_of_le {n : Int} (hlow : -2 ^ 53 ≤ n) (hup : n ≤ 2 ^ 53) : nearest n = n := by
  cases n with
  | ofNat n => exact congrArg _ (nearestNat_of_le (Int.ofNat_le.1 hup))
  | negSucc n =>
    rw [nearest, nearestNat_of_le (by omega)]
    rfl

theorem nearest_mono {a b : Int} (h : a ≤ b) : nearest a ≤ nearest b := by
  cases a with
  | ofNat m =>
    cases b with
    | ofNat n => exact Int.ofNat_le.2 (nearestNat_mono (Int.ofNat_le.1 h))
    | negSucc n => exact absurd (h.trans_lt (Int.negSucc_lt_zero n)) (Int.natCast_nonneg m).not_gt
  | negSucc m =>
    cases b with
    | ofNat n =>
      have := Int.natCast_nonneg (nearestNat (m + 1))
      have := Int.natCast_nonneg (nearestNat n)
      simp only [nearest]
      omega
    | negSucc n => exact Int.neg_le_neg (Int.ofNat_le.2 (nearestNat_mono (by omega)))

/-! ### Shifting a mantissa -/

open Float.Model
open Float.Model.UnpackedFloat

variable {em : ExtendedMantissa} {n k : Nat}

/-- The mantissa of `n / 2 ^ k` with two bits: the rest is a half or more, and it is neither nothing nor a half. -/
structure Holds (em : ExtendedMantissa) (n k : Nat) : Prop where
  mantissa : em.mantissa = n / 2 ^ k
  roundBit : em.roundBit = decide (2 ^ k ≤ 2 * (n % 2 ^ k))
  stickyBit : em.stickyBit = decide (2 * (n % 2 ^ k) ≠ 0 ∧ 2 * (n % 2 ^ k) ≠ 2 ^ k)

namespace Holds

theorem exact (n : Nat) : Holds (.ofMantissaAndAccuracy n .exact) n 0 := by
  constructor <;> simp [ExtendedMantissa.ofMantissaAndAccuracy, Nat.mod_one]

theorem shiftRightOne (h : Holds em n k) : Holds em.shiftRightOne n (k + 1) := by
  have hrest : n % 2 ^ (k + 1) = n % 2 ^ k + 2 ^ k * (n / 2 ^ k % 2) := Nat.mod_pow_succ
  have hlt := Nat.mod_lt n (Nat.two_pow_pos k)
  have hpow : 2 ^ (k + 1) = 2 * 2 ^ k := Nat.pow_succ'
  have hbit : n / 2 ^ k % 2 = 0 ∨ n / 2 ^ k % 2 = 1 := Nat.mod_two_eq_zero_or_one _
  refine ⟨?_, ?_, ?_⟩
  · rw [ExtendedMantissa.shiftRightOne, h.mantissa, Nat.div_div_eq_div_mul, Nat.pow_succ]
  · rw [ExtendedMantissa.shiftRightOne, h.mantissa, hrest, hpow]
    rcases hbit with hb | hb
    · simp [hb]
      omega
    · simp [hb]
  · rw [ExtendedMantissa.shiftRightOne, h.roundBit, h.stickyBit, hrest, hpow, ← Bool.decide_or, decide_eq_decide]
    rcases hbit with hb | hb <;> rw [hb] <;> omega

theorem shiftRight (h : Holds em n 0) : ∀ k, Holds (em >>> k) n k
  | 0 => h
  | k + 1 => (h.shiftRight k).shiftRightOne

theorem roundedMantissa (h : Holds em n k) : em.roundedMantissa = halfToEven n k := by
  obtain ⟨m, r, s⟩ := em
  obtain ⟨hm, hr, hs⟩ := h
  dsimp only at hm hr hs
  have hpos := Nat.two_pow_pos k
  unfold ExtendedMantissa.roundedMantissa ExtendedMantissa.accuracy halfToEven
  dsimp only
  rw [← hm]
  generalize 2 * (n % 2 ^ k) = rest at hr hs ⊢
  cases r <;> cases s <;> simp only [Accuracy.roundToNearestEven] <;> simp at hr hs
  · rw [if_pos hr]
  · rw [if_pos hr]
  · rw [if_neg hr.not_gt, if_pos (hs (by omega))]
  · rw [if_neg hr.not_gt, if_neg hs.2]

end Holds

/-! ### Rounding -/

theorem shiftToTargetExponent_eq {m : Nat} {e : Int} (hm : m.log2 = 52 + k) (he : -1074 ≤ e + k) :
    shiftToTargetExponent .binary64 m e .exact = (ExtendedMantissa.ofMantissaAndAccuracy m .exact >>> k, e + k) := by
  have htarget : Format.binary64.targetExponent (totalExponent m e) = e + k := by
    unfold Format.targetExponent totalExponent Format.minExponent
    simp only [Format.mantissaBits]
    omega
  unfold shiftToTargetExponent shiftToExponent
  dsimp only
  rw [htarget, add_sub_cancel_left, Int.toNat_natCast]

theorem roundWithAccuracy_eq {m r q : Nat} {e e₁ e₂ : Int} {em₁ em₂ : ExtendedMantissa} (s : Sign)
    (h₁ : shiftToTargetExponent .binary64 m e .exact = (em₁, e₁)) (hr : em₁.roundedMantissa = r)
    (h₂ : shiftToTargetExponent .binary64 r e₁ .exact = (em₂, e₂)) (hm : em₂.mantissa = q) (hpos : 0 < q) :
    roundWithAccuracy .binary64 s m e .exact = .finite s q e₂ hpos := by
  subst hr hm
  unfold roundWithAccuracy
  simp only [h₁, h₂]
  exact dif_neg hpos.ne'

/-- A mantissa that is rounded up to `2 ^ 53` is shifted once more. -/
theorem denotes_roundWithAccuracy (s : Sign) {m n k E : Nat} {e : Int} (hk : m.log2 = 52 + k) (hne : m ≠ 0)
    (he : e + k + 52 = E) (hE : E ≤ 1023) (hcarry : halfToEven m k = 2 ^ 53 → E < 1023)
    (h : n * 2 ^ 52 = halfToEven m k * 2 ^ E) :
    Denotes (roundWithAccuracy .binary64 s m e .exact) (s.apply n) := by
  have hsub : m.log2 - 52 = k := by omega
  have hlow : 2 ^ 52 ≤ halfToEven m k := hsub ▸ two_pow_le_halfToEven hne (by omega)
  have hup : halfToEven m k ≤ 2 ^ 53 := hsub ▸ halfToEven_le_two_pow m
  have h₁ := shiftToTargetExponent_eq (e := e) hk (by omega)
  have hround := ((Holds.exact m).shiftRight k).roundedMantissa
  rcases hup.eq_or_lt with heq | hlt
  · have h₂ := shiftToTargetExponent_eq (m := 2 ^ 53) (k := 1) (e := e + k) Nat.log2_two_pow (by omega)
    rw [roundWithAccuracy_eq s h₁ (hround.trans heq) h₂ (q := 2 ^ 52) rfl (by decide)]
    refine .finite s (E := E + 1) (by decide) (by decide) (by omega) (hcarry heq) ?_
    rw [h, heq]
    show _ = 2 ^ 52 * _
    ring
  · have h₂ := shiftToTargetExponent_eq (k := 0) (e := e + k) (log2_of_lt hlow hlt) (by omega)
    rw [roundWithAccuracy_eq s h₁ hround h₂ (q := halfToEven m k) rfl (by omega)]
    exact .finite s hlow hlt (by omega) (by omega) h

theorem log2_mul_two_pow {n : Nat} (hn : n ≠ 0) (j : Nat) : (n * 2 ^ j).log2 = n.log2 + j := by
  have hpos := Nat.two_pow_pos j
  rw [Nat.log2_eq_iff (Nat.mul_ne_zero hn hpos.ne'), Nat.pow_add, Nat.add_right_comm, Nat.pow_add]
  exact ⟨Nat.mul_le_mul_right _ (Nat.log2_self_le hn), Nat.mul_lt_mul_of_pos_right Nat.lt_log2_self hpos⟩

theorem Denotes.mul_one {x : UnpackedFloat} {n : Int} (h : Denotes x n) (hpos : 0 < 2 ^ 52) :
    Denotes (mul .binary64 x (.finite .positive (2 ^ 52) (-52) hpos)) n := by
  cases h with
  | zero s => exact .zero _
  | @finite s m n E e hpos' hm hlt he hE h =>
    have hsign : s * .positive = s := by cases s <;> rfl
    have hround : halfToEven (m * 2 ^ 52) 52 = m := by
      rw [halfToEven_mul m 52 0, halfToEven_zero]
    show Denotes (roundWithAccuracy .binary64 (s * .positive) (m * 2 ^ 52) (e + -52) .exact) _
    rw [hsign]
    refine denotes_roundWithAccuracy s (k := 52) ?_ (by omega) (E := E) (by omega) hE (by omega) ?_
    · rw [log2_mul_two_pow hpos'.ne', log2_of_lt hm hlt]
    · rw [h, hround]

/-! ### The floats of integers -/

theorem denotes_round {n : Nat} (s : Sign) (hn : n ≠ 0) (h : n < 2 ^ 53) :
    Denotes (UnpackedFloat.round .binary64 s n 0) (s.apply n) := by
  have hlog : n.log2 < 53 := (Nat.log2_lt hn).2 h
  obtain ⟨j, hj⟩ := Nat.exists_eq_add_of_le (Nat.lt_succ_iff.1 hlog)
  have htarget : Format.binary64.targetExponent (totalExponent n 0) = -j := by
    unfold Format.targetExponent totalExponent Format.minExponent
    simp only [Format.mantissaBits]
    omega
  have hdecrease : decreaseExponent n 0 (-j) = (n * 2 ^ j, -(j : Int)) := by
    unfold decreaseExponent
    dsimp only
    rw [Int.zero_sub, Int.neg_neg, Int.toNat_natCast, Nat.shiftLeft_eq, Int.zero_sub]
  have hround : halfToEven (n * 2 ^ j) 0 < 2 ^ 53 := by
    rw [halfToEven_zero]
    refine (Nat.log2_lt (Nat.mul_ne_zero hn (Nat.two_pow_pos j).ne')).1 ?_
    rw [log2_mul_two_pow hn]
    omega
  unfold UnpackedFloat.round
  dsimp only
  rw [htarget, hdecrease]
  refine denotes_roundWithAccuracy s (k := 0) (E := n.log2) ?_ ?_ (by omega) (by omega) (by omega) ?_
  · rw [log2_mul_two_pow hn, hj, Nat.add_zero]
  · exact Nat.mul_ne_zero hn (Nat.two_pow_pos j).ne'
  · rw [halfToEven_zero, hj, Nat.pow_add]
    ring

theorem denotes_toFloat {n : Nat} (h : n < 2 ^ 53) : Denotes n.toUInt64.toFloat.toModel.unpack n := by
  have hword : n.toUInt64.toNat = n := Nat.mod_eq_of_lt (h.trans (by decide))
  have hrounded : Denotes (UnpackedFloat.ofUInt64 .binary64 n.toUInt64) n := by
    unfold UnpackedFloat.ofUInt64 UnpackedFloat.ofNat UnpackedFloat.ofInt UnpackedFloat.normalize
    rw [hword]
    rcases Nat.eq_zero_or_pos n with rfl | hn
    · exact .zero _
    · rw [compare_gt_iff_gt.2 (Int.natCast_pos.2 hn)]
      exact denotes_round .positive hn.ne' h
  exact hrounded.pack

theorem mul_finite (s t : Sign) {m n : Nat} {e f : Int} (hm : 0 < m) (hn : 0 < n) :
    mul .binary64 (.finite s m e hm) (.finite t n f hn) = roundWithAccuracy .binary64 (s * t) (m * n) (e + f) .exact :=
  rfl

theorem ofScientific_eq {n : Nat} (hn : n ≠ 0) :
    UnpackedFloat.ofScientific .binary64 n 0 =
      roundWithAccuracy .binary64 .positive (n * 2 ^ 53) (-53) .exact := by
  have hrange : (0 : Int) ≤ 2 ^ Format.binary64.exponentBits := Int.pow_nonneg (by decide)
  unfold UnpackedFloat.ofScientific
  rw [dif_neg hn, if_neg (by omega), if_neg (by omega), if_pos (le_refl 0), mul_finite, Nat.shiftLeft_eq,
    Int.toNat_zero, Nat.pow_zero, Nat.mul_one]
  rfl

theorem denotes_ofScientific {n : Nat} (hlow : 2 ^ 53 ≤ n) (h : n < 2 ^ 64) :
    Denotes (UnpackedFloat.ofScientific .binary64 n 0) (nearestNat n) := by
  have hne : n ≠ 0 := by omega
  have hlog : 53 ≤ n.log2 := (Nat.le_log2 hne).2 hlow
  have hlog' : n.log2 < 64 := (Nat.log2_lt hne).2 h
  obtain ⟨j, hj⟩ := Nat.exists_eq_add_of_le (show 52 ≤ n.log2 by omega)
  have hnearest : nearestNat n = halfToEven n j * 2 ^ j := by rw [nearestNat, hj, Nat.add_sub_cancel_left]
  rw [ofScientific_eq hne]
  refine denotes_roundWithAccuracy .positive (k := j + 53) (E := n.log2) ?_ ?_ (by omega) (by omega) (by omega) ?_
  · rw [log2_mul_two_pow hne, hj, Nat.add_assoc]
  · exact Nat.mul_ne_zero hne (by decide)
  · rw [halfToEven_mul, hnearest, hj, Nat.pow_add]
    ring

/-- Up to 53 digits a number is converted and multiplied by one; a longer one is rounded. -/
theorem denotes_ofNat {n : Nat} (h : n < 2 ^ 64) : Denotes (Float.ofNat n).toModel.unpack (nearestNat n) := by
  show Denotes (Float.ofScientific n false 0).toModel.unpack _
  unfold Float.ofScientific
  by_cases hsmall : n < 2 ^ 53
  · have hone : Float.exactlyRepresentablePowersOfTen[0].toModel.unpack =
        .finite .positive (2 ^ 52) (-52) (by decide) := rfl
    have := (denotes_toFloat hsmall).mul_one (by decide)
    rw [← hone] at this
    rw [dif_pos ⟨hsmall, by decide⟩, nearestNat_of_le hsmall.le]
    exact this.pack
  · rw [dif_neg fun h => hsmall h.1]
    exact (denotes_ofScientific (by omega) h).pack

theorem denotes_ofInt64 (n : Int64) : Denotes (ofInt64 n).toModel.unpack (nearest n.toInt) := by
  unfold ofInt64 Float.ofInt
  have hlow := n.le_toInt
  have hup := n.toInt_lt
  cases hn : n.toInt with
  | ofNat n =>
    rw [hn] at hup
    exact denotes_ofNat ((Int.ofNat_lt.1 hup).trans (by decide))
  | negSucc n =>
    exact (denotes_ofNat (n := n + 1) (by omega)).neg.pack

theorem isNaN_ofInt64 (n : Int64) : (ofInt64 n).isNaN = false :=
  (denotes_ofInt64 n).isNaN_eq

/-- Integers are ordered as their nearest floats. -/
theorem compareFloats_ofInt64 (a b : Int64) :
    Host.compareFloats (ofInt64 a) (ofInt64 b) = some (compare (nearest a.toInt) (nearest b.toInt)) := by
  rw [compareFloats_eq]
  exact compare_of_denotes (denotes_ofInt64 a) (denotes_ofInt64 b)

end MarkupTemplate.Numeric
