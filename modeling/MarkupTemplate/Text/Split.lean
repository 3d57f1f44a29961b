import MarkupTemplate.Text.Blank

/-!
# Cutting texts

Cutting a list of characters at a separator, at every separator, or around the first occurrence of a
longer text. Nothing is lost: joining the parts with the separators gives the text back.
-/

namespace MarkupTemplate.Text

/-- The parts before and after the first `sep`, if there is one. -/
def splitFirst (sep : Char) (cs : List Char) : Option (List Char × List Char) :=
  match cs.dropWhile (· != sep) with
  | [] => none
  | _ :: rest => some (cs.takeWhile (· != sep), rest)

/-- The parts between the occurrences of `sep`: one more than there are separators. -/
def splitAll (sep : Char) : List Char → List (List Char)
  | [] => [[]]
  | c :: rest =>
    match splitAll sep rest with
    | [] => [[c]]
    | part :: parts => if c == sep then [] :: part :: parts else (c :: part) :: parts

/-- The text after `start`, if it begins so. -/
def dropStart? : List Char → List Char → Option (List Char)
  | [], cs => some cs
  | p :: ps, c :: cs => if p == c then dropStart? ps cs else none
  | _ :: _, [] => none

/-- The text before `ending`, if it ends so. -/
def dropEnd? (ending cs : List Char) : Option (List Char) :=
  (dropStart? ending.reverse cs.reverse).map List.reverse

/-- The text up to and with the first `mark`, and the text after it. -/
def splitAfter? (mark : List Char) : List Char → Option (List Char × List Char)
  | [] => if mark.isEmpty then some ([], []) else none
  | c :: rest =>
    match dropStart? mark (c :: rest) with
    | some after => some (mark, after)
    | none => (splitAfter? mark rest).map fun parts => (c :: parts.1, parts.2)

/-- The text before the first `mark`, and the text after it. -/
def splitAround? (mark : List Char) : List Char → Option (List Char × List Char)
  | [] => if mark.isEmpty then some ([], []) else none
  | c :: rest =>
    match dropStart? mark (c :: rest) with
    | some after => some ([], after)
    | none => (splitAround? mark rest).map fun parts => (c :: parts.1, parts.2)

/-- `part` occurs somewhere in the text. -/
def occursIn (part cs : List Char) : Bool :=
  (splitAround? part cs).isSome

theorem dropStart?_eq_some {start cs rest : List Char} (h : dropStart? start cs = some rest) :
    cs = start ++ rest := by
  fun_induction dropStart? start cs with
  | case1 => simpa using h
  | case2 p ps c cs hpc ih =>
    rw [beq_iff_eq] at hpc
    simp [hpc, ih h]
  | case3 => cases h
  | case4 => cases h

theorem dropStart?_append (start rest : List Char) : dropStart? start (start ++ rest) = some rest := by
  induction start with
  | nil => rfl
  | cons c start ih => simpa [dropStart?] using ih

/-- Cutting after a mark loses nothing. -/
theorem splitAfter?_append {mark cs : List Char} {parts : List Char × List Char}
    (h : splitAfter? mark cs = some parts) : parts.1 ++ parts.2 = cs := by
  induction cs generalizing parts with
  | nil =>
    unfold splitAfter? at h
    split at h <;> simp at h
    subst h; rfl
  | cons c rest ih =>
    unfold splitAfter? at h
    split at h
    · next after ha =>
      obtain rfl := Option.some.inj h
      exact (dropStart?_eq_some ha).symm
    · obtain ⟨q, hq, rfl⟩ := Option.map_eq_some_iff.mp h
      simpa using ih hq

/-- Cutting around a mark loses the mark alone. -/
theorem splitAround?_append {mark cs : List Char} {parts : List Char × List Char}
    (h : splitAround? mark cs = some parts) : cs = parts.1 ++ mark ++ parts.2 := by
  induction cs generalizing parts with
  | nil =>
    unfold splitAround? at h
    split at h
    · next hmark =>
      cases h
      rw [List.isEmpty_iff.1 hmark]
      rfl
    · cases h
  | cons c cs ih =>
    unfold splitAround? at h
    split at h
    · next after hafter =>
      cases h
      exact dropStart?_eq_some hafter
    · obtain ⟨inner, hinner, rfl⟩ := Option.map_eq_some_iff.1 h
      exact congrArg (c :: ·) (ih hinner)

end MarkupTemplate.Text
