import MarkupTemplate.Proofs.Markup.Grammar
import MarkupTemplate.Markup.Entity

/-!
# Escaped values

Escaping a text and reading its references gives the text back (`unescape_escapeAttribute`), and an escaped
text has no character that would end a quoted value (`quote_notMem_escapeAttribute`).
-/

namespace MarkupTemplate

open Text

variable {size offset : Nat} {c : Char} {body rest : List Char}

theorem unescapeFrom_plain (h : c ≠ '&') : unescapeFrom size offset (c :: rest) =
    (c :: ·) <$> unescapeFrom size (offset + c.utf8Size) rest := by
  rw [unescapeFrom, if_pos h]

/-- A reference is read where it ends, and reading goes on behind it. -/
theorem unescapeFrom_reference (body : List Char) (hb : body.all isReferenceChar)
    (hc : readReference (offset + 1) body = .ok c) :
    unescapeFrom size offset ('&' :: (body ++ ';' :: rest)) =
      (c :: ·) <$> unescapeFrom size (offset + 2 + octets body) rest := by
  have hstops : Stops isReferenceChar (';' :: rest) := .cons (by decide)
  have hdrop := dropWhile_of_stops hb hstops
  have htake := takeWhile_of_stops hb hstops
  rw [unescapeFrom, if_neg (by simp)]
  split
  · next h =>
    rw [hdrop] at h
    cases h
    rw [htake]
    dsimp only
    rw [hc]
    rfl
  · next h => exact absurd hdrop (h rest)

theorem unescapeFrom_escapeAttributeChar (c : Char) (offset : Nat) : ∃ behind, ∀ rest,
    unescapeFrom size offset (escapeAttributeChar c ++ rest) =
      (c :: ·) <$> unescapeFrom size behind rest := by
  unfold escapeAttributeChar
  split
  · next h =>
    subst h
    exact ⟨_, fun rest => unescapeFrom_reference "quot".toList rfl rfl⟩
  split
  · next h =>
    subst h
    exact ⟨_, fun rest => unescapeFrom_reference "apos".toList rfl rfl⟩
  unfold escapeContentChar
  split
  · next h =>
    subst h
    exact ⟨_, fun rest => unescapeFrom_reference "amp".toList rfl rfl⟩
  split
  · next h =>
    subst h
    exact ⟨_, fun rest => unescapeFrom_reference "lt".toList rfl rfl⟩
  split
  · next h =>
    subst h
    exact ⟨_, fun rest => unescapeFrom_reference "gt".toList rfl rfl⟩
  · next h _ _ => exact ⟨_, fun rest => unescapeFrom_plain h⟩

theorem unescapeFrom_escaped (cs : List Char) (offset : Nat) :
    unescapeFrom size offset (cs.flatMap escapeAttributeChar) = .ok cs := by
  induction cs generalizing offset with
  | nil => rw [List.flatMap_nil, unescapeFrom]
  | cons c cs ih =>
    obtain ⟨behind, h⟩ := unescapeFrom_escapeAttributeChar c offset
    rw [List.flatMap_cons, h, ih]
    rfl

/-- Reading the references of an escaped text gives the text. -/
theorem unescape_escapeAttribute (s : String) : unescape (escapeAttribute s) = .ok s := by
  rw [unescape, escapeAttribute, String.toList_ofList, unescapeFrom_escaped]
  exact congrArg Except.ok String.ofList_toList

theorem quote_notMem_escapeAttributeChar {q : Char} (hq : q = '"' ∨ q = '\x27') (c : Char) :
    q ∉ escapeAttributeChar c := by
  have hreference : ∀ s ∈ ["&quot;", "&apos;", "&amp;", "&lt;", "&gt;"], q ∉ s.toList := by
    rcases hq with rfl | rfl <;> decide
  unfold escapeAttributeChar escapeContentChar
  split
  · exact hreference _ (by simp)
  split
  · exact hreference _ (by simp)
  split
  · exact hreference _ (by simp)
  split
  · exact hreference _ (by simp)
  split
  · exact hreference _ (by simp)
  · next hdouble hsingle _ _ _ =>
    rw [List.mem_singleton]
    rintro rfl
    exact hq.elim hdouble hsingle

theorem quote_notMem_escapeAttribute {q : Char} (hq : q = '"' ∨ q = '\x27') (s : String) :
    q ∉ (escapeAttribute s).toList := by
  rw [escapeAttribute, String.toList_ofList, List.mem_flatMap]
  rintro ⟨c, -, hc⟩
  exact quote_notMem_escapeAttributeChar hq c hc

end MarkupTemplate
