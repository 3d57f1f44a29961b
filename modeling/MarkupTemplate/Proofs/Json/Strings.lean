import MarkupTemplate.Json.Reader
import MarkupTemplate.Json.Writer
import Mathlib.Data.List.Basic

/-!
# Strings in a JSON text

A character is written in one of three ways, and read from each as itself (`stringChar?_writeChar`). None of
them begins with a quote, so the quote behind the characters closes the string (`string?_writeString`).
-/

namespace MarkupTemplate.Json

theorem hexDigit?_digitChar {n : Nat} (h : n < 16) : hexDigit? (Nat.digitChar n) = some n := by
  have hall : ∀ m : Fin 16, hexDigit? (Nat.digitChar m) = some m.1 := by decide
  exact hall ⟨n, h⟩

/-- A control is read from the two digits that its word ends with. -/
theorem escapedChar?_control {c : Char} (h : c.toNat < 0x20) (rest : List Char) :
    escapedChar? ('0' :: '0' :: Nat.digitChar (c.toNat / 16) :: Nat.digitChar (c.toNat % 16) :: rest) =
      some (some c, rest) := by
  have hhigh := hexDigit?_digitChar (n := c.toNat / 16) (by omega)
  have hlow := hexDigit?_digitChar (n := c.toNat % 16) (by omega)
  have hzero : hexDigit? '0' = some 0 := by decide
  have hword : 16 * (c.toNat / 16) + c.toNat % 16 = c.toNat := by omega
  have hhalf : isHighHalf c.toNat = false ∧ isLowHalf c.toNat = false := by
    simp only [isHighHalf, isLowHalf, Bool.and_eq_false_iff, decide_eq_false_iff_not]
    omega
  simp [escapedChar?, hexWord?, hhigh, hlow, hzero, hword, hhalf]

/-- A character is read as it was written. -/
theorem stringChar?_writeChar (c : Char) (rest : List Char) :
    stringChar? (writeChar c ++ rest) = some (some c, rest) := by
  unfold writeChar
  split
  · next h => subst h; rfl
  split
  · next h => subst h; rfl
  split
  · next h => subst h; rfl
  split
  · next h => subst h; rfl
  split
  · next h => subst h; rfl
  split
  · next h => rw [← Char.ofNat_toNat c, h]; rfl
  split
  · next h => rw [← Char.ofNat_toNat c, h]; rfl
  split
  · next h => exact escapedChar?_control h rest
  · next hquote hslash _ _ _ _ _ hcontrol => simp [stringChar?, hquote, hslash, hcontrol]

/-- What is written for a character begins with no quote. -/
theorem writeChar_eq_cons (c : Char) : ∃ d more, writeChar c = d :: more ∧ d ≠ '"' := by
  unfold writeChar
  split
  · exact ⟨_, _, rfl, by decide⟩
  · next hquote =>
    repeat' split
    all_goals first | exact ⟨_, _, rfl, by decide⟩ | exact ⟨_, _, rfl, hquote⟩

/-- The characters up to the quote are read as they were written, if there is fuel for each and the quote. -/
theorem stringBody?_write (cs soFar rest : List Char) {fuel : Nat} (h : cs.length < fuel) :
    stringBody? (some soFar) fuel (cs.flatMap writeChar ++ '"' :: rest) =
      some (some (String.ofList (soFar.reverse ++ cs)), rest) := by
  induction cs generalizing soFar fuel with
  | nil =>
    obtain ⟨fuel, rfl⟩ := Nat.exists_eq_add_of_lt h
    simp [stringBody?]
  | cons c cs ih =>
    obtain ⟨fuel, rfl⟩ := Nat.exists_eq_add_of_lt (Nat.zero_lt_of_lt h)
    obtain ⟨d, more, hd, hne⟩ := writeChar_eq_cons c
    have hchar := stringChar?_writeChar c (cs.flatMap writeChar ++ '"' :: rest)
    have hfuel : cs.length < 0 + fuel := by
      rw [List.length_cons] at h
      omega
    have hrest := ih (c :: soFar) hfuel
    rw [List.flatMap_cons, List.append_assoc]
    rw [hd, List.cons_append] at hchar ⊢
    unfold stringBody?
    split
    · next heq => cases heq; exact absurd rfl hne
    · simpa [hchar] using hrest

/-- A string is read as it was written. -/
theorem string?_writeString (s : String) (rest : List Char) {size : Nat} (h : s.toList.length < size) :
    string? size ((writeString s).toList ++ rest) = some (some s, rest) := by
  have hbody := stringBody?_write s.toList [] rest h
  simpa [writeString, string?] using hbody

theorem length_flatMap_writeChar (cs : List Char) : cs.length ≤ (cs.flatMap writeChar).length := by
  induction cs with
  | nil => exact Nat.le_refl 0
  | cons c cs ih =>
    obtain ⟨d, more, hd, -⟩ := writeChar_eq_cons c
    rw [List.flatMap_cons, hd, List.length_append, List.length_cons, List.length_cons]
    omega

theorem length_lt_writeString (s : String) : s.toList.length < (writeString s).toList.length := by
  have := length_flatMap_writeChar s.toList
  simp only [writeString, String.toList_ofList, List.cons_append, List.length_cons, List.length_append,
    List.length_nil]
  omega

end MarkupTemplate.Json
