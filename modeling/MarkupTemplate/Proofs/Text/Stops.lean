import Mathlib.Data.List.TakeWhile

/-!
# Where a part of a text stops

A reader takes characters of a kind as long as they come. A text that begins with none of the kind
(`Stops`) may stand behind what it reads: the reader takes what it took without it.
-/

namespace MarkupTemplate

/-- The text does not begin with a character of a kind. -/
def Stops (p : Char → Bool) (cs : List Char) : Prop :=
  ∀ c ∈ cs.head?, p c = false

variable {p : Char → Bool} {c : Char} {cs rest : List Char}

theorem Stops.cons (h : p c = false) : Stops p (c :: rest) := by
  rintro d hd
  cases hd
  exact h

theorem takeWhile_append_of_stops (h : Stops p rest) (cs : List Char) :
    (cs ++ rest).takeWhile p = cs.takeWhile p := by
  induction cs with
  | nil =>
    cases rest with
    | nil => rfl
    | cons c rest => simp [h c rfl]
  | cons c cs ih => rw [List.cons_append, List.takeWhile_cons, List.takeWhile_cons, ih]

theorem dropWhile_append_of_stops (h : Stops p rest) (cs : List Char) :
    (cs ++ rest).dropWhile p = cs.dropWhile p ++ rest := by
  have := List.takeWhile_append_dropWhile (p := p) (l := cs ++ rest)
  rw [takeWhile_append_of_stops h] at this
  have hsplit : cs.takeWhile p ++ (cs.dropWhile p ++ rest) = cs ++ rest := by
    rw [← List.append_assoc, List.takeWhile_append_dropWhile]
  exact List.append_cancel_left (this.trans hsplit.symm)

theorem takeWhile_of_stops (hall : cs.all p) (h : Stops p rest) : (cs ++ rest).takeWhile p = cs := by
  rw [takeWhile_append_of_stops h, List.takeWhile_eq_self_iff.2 (List.all_eq_true.1 hall)]

theorem dropWhile_of_stops (hall : cs.all p) (h : Stops p rest) : (cs ++ rest).dropWhile p = rest := by
  rw [dropWhile_append_of_stops h, List.dropWhile_eq_nil_iff.2 (List.all_eq_true.1 hall), List.nil_append]

end MarkupTemplate
