import Mathlib.Data.List.DropRight
import MarkupTemplate.Text.Blank
import MarkupTemplate.Text.Letter

/-!
# Blanks

A trimmed text has no blank at either end, and such a text is its own trimming (`trim_eq_self`). Blanks are neither
letters nor numbers: inside ASCII that is seen blank by blank; beyond it the blanks are a few ranges, and no range of
letters or numbers meets one of them (`areApart`).
-/

/-! ## What trimming leaves -/

namespace MarkupTemplate.Text

theorem trim_trim (cs : List Char) : trim (trim cs) = trim cs := by
  have hstart : trimStart (trim cs) = trim cs := by
    have hbefore : trim cs <+: trimStart cs := List.rdropWhile_prefix isBlank (trimStart cs)
    unfold trimStart
    rw [List.dropWhile_eq_self_iff]
    intro hl
    have hl' : 0 < (trimStart cs).length := Nat.lt_of_lt_of_le hl hbefore.length_le
    rw [hbefore.getElem hl]
    exact List.dropWhile_get_zero_not isBlank cs hl'
  have hend : trimEnd (trim cs) = trim cs := List.rdropWhile_idempotent isBlank (trimStart cs)
  rw [trim, hstart, hend]

theorem trimStart_eq_self {cs : List Char} : trimStart cs = cs ↔ ∀ c ∈ cs.head?, isBlank c = false := by
  cases cs with
  | nil => simp [trimStart]
  | cons c cs => simp [trimStart, List.dropWhile_eq_self_iff]

theorem trimEnd_eq_self {cs : List Char} : trimEnd cs = cs ↔ ∀ c ∈ cs.getLast?, isBlank c = false := by
  show cs.rdropWhile isBlank = cs ↔ _
  rw [List.rdropWhile_eq_self_iff]
  cases cs with
  | nil => simp
  | cons c cs => simp [List.getLast?_eq_some_getLast (List.cons_ne_nil c cs)]

/-- Trimming leaves a text as it is just if there is no blank at either end. -/
theorem trim_eq_self {cs : List Char} :
    trim cs = cs ↔ (∀ c ∈ cs.head?, isBlank c = false) ∧ ∀ c ∈ cs.getLast?, isBlank c = false := by
  rw [← trimStart_eq_self, ← trimEnd_eq_self]
  constructor
  · intro h
    have hbefore : trim cs <+: trimStart cs := List.rdropWhile_prefix isBlank (trimStart cs)
    have hstart : trimStart cs = cs := by
      refine (List.dropWhile_suffix isBlank).eq_of_length_le ?_
      exact (congrArg List.length h).symm.le.trans hbefore.length_le
    rw [trim, hstart] at h
    exact ⟨hstart, h⟩
  · rintro ⟨hstart, hend⟩
    rw [trim, hstart, hend]

theorem trim_of_forall {cs : List Char} (h : ∀ c ∈ cs, isBlank c = false) : trim cs = cs :=
  trim_eq_self.2 ⟨fun c hc => h c (List.mem_of_mem_head? hc), fun c hc => h c (List.mem_of_mem_getLast? hc)⟩

end MarkupTemplate.Text

/-! ## Letters and numbers -/

namespace MarkupTemplate.Text

variable {c : Char}

/-- A character is not of a kind if its code is among some that are not. -/
theorem eq_false_of_toNat_mem {p : Char → Bool} (codes : List Nat)
    (hp : ∀ n ∈ codes, p (Char.ofNat n) = false) (hc : c.toNat ∈ codes) : p c = false := by
  rw [← Char.ofNat_toNat c]
  exact hp _ hc

/-- No range meets one of the others. -/
def areApart (ranges others : List (Nat × Nat)) : Bool :=
  ranges.all fun r => others.all fun s => Nat.blt r.2 s.1 || Nat.blt s.2 r.1

theorem inRanges_of_areApart {ranges : Array (Nat × Nat)} {others : List (Nat × Nat)}
    (h : areApart ranges.toList others) {s : Nat × Nat} (hs : s ∈ others) (hc : s.1 ≤ c.toNat ∧ c.toNat ≤ s.2) :
    inRanges ranges c = false := by
  rw [inRanges, ← Array.any_toList, List.any_eq_false]
  intro r hr hin
  have hout := List.all_eq_true.1 (List.all_eq_true.1 h r hr) s hs
  simp only [Bool.or_eq_true, Nat.blt_eq] at hout
  simp only [Bool.and_eq_true, decide_eq_true_eq] at hin
  omega

/-- The blanks beyond ASCII. -/
def blankRanges : List (Nat × Nat) :=
  [(0x85, 0x85), (0xa0, 0xa0), (0x1680, 0x1680), (0x2000, 0x200a), (0x2028, 0x2029), (0x202f, 0x202f),
   (0x205f, 0x205f), (0x3000, 0x3000)]

theorem blankRange_of_isBlank (h : isBlank c) (hc : 0x80 ≤ c.toNat) :
    ∃ s ∈ blankRanges, s.1 ≤ c.toNat ∧ c.toNat ≤ s.2 := by
  simp only [isBlank, Bool.or_eq_true, Bool.and_eq_true, decide_eq_true_eq, beq_iff_eq] at h
  simp only [blankRanges, List.mem_cons, List.not_mem_nil, or_false, exists_eq_or_imp, exists_eq_left]
  omega

theorem isAlphanumeric_of_isBlank (h : isBlank c) : isAlphanumeric c = false := by
  by_cases hc : c.toNat < 0x80
  · refine eq_false_of_toNat_mem [9, 10, 11, 12, 13, 32] (by decide +kernel) ?_
    simp only [isBlank, Bool.or_eq_true, Bool.and_eq_true, decide_eq_true_eq, beq_iff_eq] at h
    simp only [List.mem_cons, List.not_mem_nil, or_false]
    omega
  · obtain ⟨s, hs, hrange⟩ := blankRange_of_isBlank h (Nat.le_of_not_lt hc)
    rw [isAlphanumeric, isAlphabetic, isNumber, if_neg hc, if_neg hc,
      inRanges_of_areApart (by decide +kernel) hs hrange, inRanges_of_areApart (by decide +kernel) hs hrange]
    rfl

end MarkupTemplate.Text
