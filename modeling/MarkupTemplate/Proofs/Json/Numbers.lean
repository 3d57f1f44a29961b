import MarkupTemplate.Json.Reader
import MarkupTemplate.Json.Writer
import MarkupTemplate.Proofs.Text.Stops

/-!
# Numbers in a JSON text

A number is followed by nothing, a comma or a closing bracket (`Delimits`). None of these goes on with it,
so a number is read in front of them as it is read alone (`number?_append`). A whole number of 64 bits is
read as it was written (`number?_int`); a float is if its digits, which are read quickly, give it again.
-/

namespace MarkupTemplate

open Numeric

/-- Nothing, or a comma or a closing bracket: what follows a value. -/
def Json.Delimits (cs : List Char) : Prop :=
  ∀ c ∈ cs.head?, c = ',' ∨ c = ']' ∨ c = '\x7d'

namespace Json

variable {cs rest behind : List Char} {negative : Bool}

namespace Delimits

theorem nil : Delimits [] := by
  intro c hc
  cases hc

theorem cons {c : Char} (h : c = ',' ∨ c = ']' ∨ c = '\x7d') : Delimits (c :: rest) := by
  intro d hd
  cases hd
  exact h

theorem stops {p : Char → Bool} (h : Delimits rest)
    (hp : p ',' = false ∧ p ']' = false ∧ p '\x7d' = false) : Stops p rest := by
  intro c hc
  rcases h c hc with rfl | rfl | rfl
  · exact hp.1
  · exact hp.2.1
  · exact hp.2.2

theorem isDigit (h : Delimits rest) : Stops Char.isDigit rest :=
  h.stops (by decide)

end Delimits

/-! ### A number and what follows it -/

theorem splitSign_append (h : Delimits rest) (cs : List Char) :
    splitSign (cs ++ rest) = ((splitSign cs).1, (splitSign cs).2 ++ rest) := by
  cases cs with
  | nil =>
    cases rest with
    | nil => rfl
    | cons c rest => rcases h c rfl with rfl | rfl | rfl <;> rfl
  | cons c cs =>
    rw [List.cons_append]
    by_cases hm : c = '-'
    · subst hm
      rfl
    by_cases hp : c = '+'
    · subst hp
      rfl
    · simp [splitSign, hm, hp]

theorem exponent?_append (h : Delimits rest) {power : Int} (he : exponent? cs = some (power, behind)) :
    exponent? (cs ++ rest) = some (power, behind ++ rest) := by
  unfold exponent? at he ⊢
  simp only [splitSign_append h, takeWhile_append_of_stops h.isDigit, dropWhile_append_of_stops h.isDigit]
  simp only at he
  split at he
  · cases he
  · next hne =>
    cases he
    rw [if_neg hne]

theorem power?_append (h : Delimits rest) {significand : Nat} {exponent : Int} {j : Json}
    (hp : power? negative significand exponent cs = some (j, behind)) :
    power? negative significand exponent (cs ++ rest) = some (j, behind ++ rest) := by
  cases cs with
  | nil =>
    cases hp
    cases rest with
    | nil => rfl
    | cons c rest => rcases h c rfl with rfl | rfl | rfl <;> rfl
  | cons c cs =>
    rw [List.cons_append]
    unfold power? at hp ⊢
    dsimp only at hp ⊢
    split at hp
    · next he =>
      obtain ⟨⟨power, after⟩, hx, hp⟩ := Option.map_eq_some_iff.1 hp
      cases hp
      rw [if_pos he, exponent?_append h hx]
      rfl
    · next he =>
      cases hp
      rw [if_neg he]
      rfl

/-- What `magnitude?` reads behind the digits of a number, of which `dropped` were too many. -/
def behindDigits? (negative : Bool) (significand dropped : Nat) (cs : List Char) :
    Option (Json × List Char) :=
  match cs with
  | '.' :: after =>
    let fraction := after.takeWhile Char.isDigit
    if fraction.isEmpty then none
    else
      let (significand, taken, _) := takeDigits significand 0 fraction
      power? negative significand (dropped - taken) (after.dropWhile Char.isDigit)
  | c :: _ =>
    if c = 'e' ∨ c = 'E' ∨ 0 < dropped then power? negative significand dropped cs
    else some (magnitude?.wholeNumber negative significand, cs)
  | [] =>
    if 0 < dropped then power? negative significand dropped cs
    else some (magnitude?.wholeNumber negative significand, cs)

theorem magnitude?_eq (negative : Bool) (cs : List Char) : magnitude? negative cs =
    let whole := cs.takeWhile Char.isDigit
    if whole.isEmpty || (whole.length > 1 && whole.head? == some '0') then none
    else behindDigits? negative (takeDigits 0 0 whole).1 (takeDigits 0 0 whole).2.2
      (cs.dropWhile Char.isDigit) := rfl

theorem behindDigits?_append (h : Delimits rest) {significand dropped : Nat} {j : Json}
    (hb : behindDigits? negative significand dropped cs = some (j, behind)) :
    behindDigits? negative significand dropped (cs ++ rest) = some (j, behind ++ rest) := by
  unfold behindDigits? at hb
  split at hb
  · next after =>
    -- a fraction, in front of which the digits of `rest` do not count either
    dsimp only at hb
    rw [List.cons_append, behindDigits?]
    simp only [takeWhile_append_of_stops h.isDigit, dropWhile_append_of_stops h.isDigit]
    split at hb
    · cases hb
    · next hf =>
      rw [if_neg hf]
      exact power?_append h hb
  · next c after hc =>
    -- no point comes next, so the first character decides whether there is an exponent
    rw [List.cons_append]
    unfold behindDigits?
    split
    · next heq =>
      cases heq
      exact (hc rfl).elim
    · next heq =>
      cases heq
      split at hb
      · next he =>
        rw [if_pos he]
        exact power?_append h hb
      · next he =>
        cases hb
        rw [if_neg he]
        rfl
    · next heq => cases heq
  · -- the digits are all there is, and what follows them is no point and no exponent
    cases rest with
    | nil => simpa [behindDigits?] using hb
    | cons c rest =>
      have hc : c ≠ '.' ∧ c ≠ 'e' ∧ c ≠ 'E' := by
        rcases h c rfl with rfl | rfl | rfl <;> decide
      split at hb
      · next hd => simpa [behindDigits?, hc, hd] using power?_append h hb
      · next hd =>
        cases hb
        simp [behindDigits?, hc, hd]

theorem magnitude?_append (h : Delimits rest) {j : Json}
    (hm : magnitude? negative cs = some (j, behind)) :
    magnitude? negative (cs ++ rest) = some (j, behind ++ rest) := by
  rw [magnitude?_eq] at hm ⊢
  simp only [takeWhile_append_of_stops h.isDigit, dropWhile_append_of_stops h.isDigit] at hm ⊢
  split at hm
  · cases hm
  · next hw =>
    rw [if_neg hw]
    exact behindDigits?_append h hm

theorem number?_unsigned {c : Char} (hc : c ≠ '-') : number? (c :: cs) = magnitude? false (c :: cs) := by
  unfold number?
  split
  · next heq =>
    cases heq
    exact absurd rfl hc
  · rfl

/-- A number is read in front of what may follow it as it is read alone. -/
theorem number?_append (h : Delimits rest) {j : Json} (hn : number? cs = some (j, behind)) :
    number? (cs ++ rest) = some (j, behind ++ rest) := by
  cases cs with
  | nil => cases hn
  | cons c cs =>
    rw [List.cons_append]
    by_cases hc : c = '-'
    · subst hc
      exact magnitude?_append h hn
    · rw [number?_unsigned hc] at hn ⊢
      exact magnitude?_append h hn

/-- What begins a number. -/
theorem exists_of_number? {j : Json} (h : number? cs = some (j, behind)) :
    ∃ c after, cs = c :: after ∧ (c = '-' ∨ c.isDigit) := by
  cases cs with
  | nil => cases h
  | cons c cs =>
    refine ⟨c, cs, rfl, ?_⟩
    by_cases hc : c = '-'
    · exact .inl hc
    · right
      rw [number?_unsigned hc] at h
      unfold magnitude? at h
      by_cases hd : c.isDigit
      · exact hd
      · simp [hd] at h

/-! ### Whole numbers -/

theorem le_digitsValue (digits : List Char) (n : Nat) :
    n ≤ digits.foldl (fun n c => 10 * n + (c.toNat - 48)) n := by
  induction digits generalizing n with
  | nil => exact Nat.le_refl n
  | cons c digits ih =>
    have hstep : n ≤ 10 * n + (c.toNat - 48) := by omega
    exact Nat.le_trans hstep (ih _)

/-- Digits that 64 bits hold are all taken. -/
theorem takeDigits_eq {digits : List Char} {n taken : Nat}
    (h : digits.foldl (fun n c => 10 * n + (c.toNat - 48)) n ≤ maxWord) :
    takeDigits n taken digits =
      (digits.foldl (fun n c => 10 * n + (c.toNat - 48)) n, taken + digits.length, 0) := by
  induction digits generalizing n taken with
  | nil => rfl
  | cons c digits ih =>
    have hnext : ¬maxWord < 10 * n + (c.toNat - 48) :=
      Nat.not_lt.2 (Nat.le_trans (le_digitsValue digits _) h)
    rw [takeDigits]
    simp only [hnext, if_false]
    rw [ih h, List.length_cons, List.foldl_cons, Nat.add_assoc, Nat.add_comm 1]

theorem digitsValue_toDigits (n : Nat) : digitsValue (Nat.toDigits 10 n) = n :=
  Nat.ofDigitChars_toDigits (by decide) (by decide)

theorem isDigit_toDigits (n : Nat) : (Nat.toDigits 10 n).all Char.isDigit :=
  List.all_eq_true.2 fun _ hc => Nat.isDigit_of_mem_toDigits (by decide) (by decide) hc

/-- Only zero begins with a zero. -/
theorem head_toDigits {n : Nat} (h : (Nat.toDigits 10 n).head? = some '0') : n = 0 := by
  induction n using Nat.strongRecOn with
  | _ n ih =>
    by_cases hn : n < 10
    · rw [Nat.toDigits_of_lt_base hn, List.head?_cons] at h
      have hall : ∀ m : Fin 10, Nat.digitChar m = '0' → m = 0 := by decide
      simpa using hall ⟨n, hn⟩ (Option.some.inj h)
    · rw [Nat.toDigits_of_base_le (by decide) (by omega),
        List.head?_append, Option.or_of_isSome (by simp [Nat.toDigits_ne_nil])] at h
      have := ih (n / 10) (by omega) h
      omega

/-- The digits of a number that 64 bits hold are read as the number. -/
theorem magnitude?_toDigits {n : Nat} (h : n ≤ maxWord) :
    magnitude? negative (Nat.toDigits 10 n) = some (magnitude?.wholeNumber negative n, []) := by
  have htake : (Nat.toDigits 10 n).takeWhile Char.isDigit = Nat.toDigits 10 n :=
    List.takeWhile_eq_self_iff.2 (List.all_eq_true.1 (isDigit_toDigits n))
  have hdrop : (Nat.toDigits 10 n).dropWhile Char.isDigit = [] :=
    List.dropWhile_eq_nil_iff.2 (List.all_eq_true.1 (isDigit_toDigits n))
  have hdigits := digitsValue_toDigits n
  have hcanonical : ((Nat.toDigits 10 n).isEmpty ||
      ((Nat.toDigits 10 n).length > 1 && (Nat.toDigits 10 n).head? == some '0')) = false := by
    have hne : (Nat.toDigits 10 n).isEmpty = false := List.isEmpty_eq_false_iff.2 Nat.toDigits_ne_nil
    rw [hne, Bool.false_or]
    by_cases hz : n = 0
    · subst hz
      rfl
    · have hhead : ((Nat.toDigits 10 n).head? == some '0') = false :=
        beq_eq_false_iff_ne.2 fun h0 => hz (head_toDigits h0)
      rw [hhead, Bool.and_false]
  have htaken : takeDigits 0 0 (Nat.toDigits 10 n) = (n, 0 + (Nat.toDigits 10 n).length, 0) := by
    rw [digitsValue] at hdigits
    rw [takeDigits_eq (by rw [hdigits]; exact h), hdigits]
  unfold magnitude?
  simp [htake, hdrop, hcanonical, htaken]

/-- A whole number of 64 bits, signed or not. -/
def IsWord (n : Int) : Prop :=
  Int64.minValue.toInt ≤ n ∧ n < UInt64.size

instance (n : Int) : Decidable (IsWord n) :=
  inferInstanceAs (Decidable (_ ∧ _))

theorem number?_repr {n : Nat} (h : n ≤ maxWord) : number? (Nat.repr n).toList = some (int n, []) := by
  rw [Nat.repr_eq_ofList_toDigits, String.toList_ofList]
  obtain ⟨c, digits, hcs⟩ := List.exists_cons_of_ne_nil (Nat.toDigits_ne_nil (n := n) (b := 10))
  have hc : c ≠ '-' := by
    rintro rfl
    have := isDigit_toDigits n
    simp [hcs] at this
  have hread : magnitude? false (Nat.toDigits 10 n) = some (int n, []) := magnitude?_toDigits h
  rw [hcs] at hread ⊢
  rw [number?_unsigned hc]
  exact hread

theorem number?_neg {n : Nat} (h : n + 1 ≤ UInt64.size / 2) :
    number? ("-" ++ Nat.repr (n + 1)).toList = some (int (Int.negSucc n), []) := by
  have htext : ("-" ++ Nat.repr (n + 1)).toList = '-' :: Nat.toDigits 10 (n + 1) := by
    rw [Nat.repr_eq_ofList_toDigits, String.toList_append,
      String.toList_ofList (l := Nat.toDigits 10 (n + 1))]
    rfl
  have hword : n + 1 ≤ maxWord := Nat.le_trans h (by decide)
  rw [htext]
  show magnitude? true (Nat.toDigits 10 (n + 1)) = _
  rw [magnitude?_toDigits hword]
  simp [magnitude?.wholeNumber, Nat.not_lt.2 h, Int.negSucc_eq]

/-- A whole number of 64 bits is read as it was written. -/
theorem number?_int {n : Int} (h : IsWord n) : number? (toString n).toList = some (int n, []) := by
  obtain ⟨hlow, hhigh⟩ := h
  cases n with
  | ofNat n =>
    have hmax : maxWord = UInt64.size - 1 := rfl
    have hn : n ≤ maxWord := by
      simp only [Int.ofNat_eq_natCast] at hhigh
      omega
    exact number?_repr hn
  | negSucc n =>
    have hmin : Int64.minValue.toInt = -9223372036854775808 := by decide
    have hhalf : UInt64.size / 2 = 9223372036854775808 := by decide
    exact number?_neg (by omega)

end Json

end MarkupTemplate
