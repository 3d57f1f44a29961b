import MarkupTemplate.Host.Parser
import MarkupTemplate.Proofs.Expression.Paths
import MarkupTemplate.Proofs.Json.Numbers

/-!
# The tokens of host code

Host code is a sequence of tokens with blanks between them (`Spaced`). A reader of a sign or a word takes its token
together with the blanks, and nothing if another token comes first: a sign is told by its first character, but for
the few signs that go on as others begin, and a word by where it ends.
-/

namespace MarkupTemplate.Host

open Text

/-- A token of host code. A word is a name or a keyword. -/
inductive Lexeme where
  | word (w : String)
  | number (n : Nat)
  | quoted (quote : Char) (s : String)
  | sign (s : String)

/-- The signs of host code. -/
def signs : List String :=
  [".", "[", "]", "(", ")", ",", "-", "+", "*", "/", "//", "%", "==", "!=", "<=", ">=", "<", ">"]

namespace Lexeme

/-- The characters of a token. -/
def text : Lexeme → List Char
  | word w => w.toList
  | number n => Nat.toDigits 10 n
  | quoted quote s => quote :: (s.toList ++ [quote])
  | sign s => s.toList

/-- Consists of letters, digits and underscores, so that it must not touch another such token. -/
def isWord : Lexeme → Bool
  | word _ | number _ => true
  | quoted _ _ | sign _ => false

/-- Words are written like names, quoted texts do not have their quote inside, and there are no other signs. -/
def IsWellFormed : Lexeme → Prop
  | word w => Path.IsRoot w
  | number _ => True
  | quoted quote s => (quote = '\x27' ∨ quote = '"') ∧ quote ∉ s.toList
  | sign s => s ∈ signs

end Lexeme

open Lexeme

/-- The text consists of the tokens with blanks before, between and behind them: any number of blanks, and at least
one between two words. -/
inductive Spaced : List Lexeme → List Char → Prop
  | nil : Spaced [] []
  | blank {c : Char} {ts : List Lexeme} {cs : List Char} (hc : isSpace c) (h : Spaced ts cs) : Spaced ts (c :: cs)
  | token {t : Lexeme} {ts : List Lexeme} {cs : List Char} (ht : t.IsWellFormed) (h : Spaced ts cs)
      (hapart : t.isWord → ts.head?.any isWord → cs.head?.any isSpace) : Spaced (t :: ts) (t.text ++ cs)

variable {t : Lexeme} {ts : List Lexeme} {cs rest : List Char} {c : Char} {w s : String}

/-! ### Characters of tokens -/

theorem isRootChar_of_isSpace (h : isSpace c) : Path.isRootChar c = false := by
  simp only [isSpace, Bool.or_eq_true, beq_iff_eq] at h
  rcases h with ((rfl | rfl) | rfl) | rfl <;> decide +kernel

theorem isRootChar_of_isDigit (h : c.isDigit) : Path.isRootChar c := by
  simp only [Char.isDigit, Bool.and_eq_true, decide_eq_true_eq, ge_iff_le, UInt32.le_iff_toNat_le] at h
  have hcode : 48 ≤ c.toNat ∧ c.toNat ≤ 57 := h
  have hnumber : isNumber c := by
    rw [isNumber, if_pos (by omega)]
    simpa [Char.isDigit, UInt32.le_iff_toNat_le] using h
  simp [Path.isRootChar, isAlphanumeric, hnumber]

theorem exists_digits (n : Nat) : ∃ c cs, Nat.toDigits 10 n = c :: cs ∧ c.isDigit := by
  obtain ⟨c, cs, hcs⟩ := List.exists_cons_of_ne_nil (Nat.toDigits_ne_nil (n := n) (b := 10))
  have hall := Json.isDigit_toDigits n
  rw [hcs, List.all_cons, Bool.and_eq_true] at hall
  exact ⟨c, cs, hcs, hall.1⟩

theorem isRootChar_of_isRoot (h : Path.IsRoot w) : w.toList.all Path.isRootChar := by
  obtain ⟨c, cs, hw, hc, hcs⟩ := h
  rw [hw, List.all_cons, Path.isRootChar_of_isRootStart hc, hcs]
  rfl

theorem isRootChar_of_isWord (ht : t.IsWellFormed) (h : t.isWord) : t.text.all Path.isRootChar := by
  cases t with
  | word w => exact isRootChar_of_isRoot ht
  | number n =>
    exact List.all_eq_true.2 fun c hc => isRootChar_of_isDigit (List.all_eq_true.1 (Json.isDigit_toDigits n) c hc)
  | quoted quote s => cases h
  | sign s => cases h

/-- A token is not empty, and its first character tells whether it is a word. -/
theorem exists_text (ht : t.IsWellFormed) :
    ∃ c cs, t.text = c :: cs ∧ isSpace c = false ∧ Path.isRootChar c = t.isWord := by
  have hword {c : Char} (hc : Path.isRootChar c) : isSpace c = false := by
    by_contra hs
    rw [isRootChar_of_isSpace (by simpa using hs)] at hc
    cases hc
  cases t with
  | word w =>
    obtain ⟨c, cs, hw, hc, -⟩ := ht
    have hroot := Path.isRootChar_of_isRootStart hc
    exact ⟨c, cs, hw, hword hroot, hroot⟩
  | number n =>
    obtain ⟨c, cs, hn, hc⟩ := exists_digits n
    have hroot := isRootChar_of_isDigit hc
    exact ⟨c, cs, hn, hword hroot, hroot⟩
  | quoted quote s =>
    have hquotes : ['\x27', '"'].all fun c => !isSpace c && !Path.isRootChar c := by decide +kernel
    have hquote := List.all_eq_true.1 hquotes quote (by simpa using ht.1)
    exact ⟨quote, _, rfl, by simpa [isWord] using hquote⟩
  | sign s =>
    have hsigns : ∀ s ∈ signs, s.toList.head?.any fun c => !isSpace c && !Path.isRootChar c := by decide +kernel
    obtain ⟨c, hc, hchar⟩ := (Option.any_eq_true ..).1 (hsigns s ht)
    obtain ⟨cs, hcs⟩ := List.head?_eq_some_iff.1 hc
    exact ⟨c, cs, hcs, by simpa [isWord] using hchar⟩

/-- No other token has the characters of a word. -/
theorem eq_word (ht : t.IsWellFormed) (hw : Path.IsRoot w) (h : t.text = w.toList) : t = .word w := by
  obtain ⟨c, cs, htext, -, hroot⟩ := exists_text ht
  obtain ⟨d, ds, hwd, hd, -⟩ := hw
  obtain ⟨rfl, -⟩ := List.cons.inj ((htext.symm.trans h).trans hwd)
  rw [Path.isRootChar_of_isRootStart hd] at hroot
  cases t with
  | word v => exact congrArg Lexeme.word (String.toList_inj.1 h)
  | number n =>
    obtain ⟨e, es, hn, he⟩ := exists_digits n
    obtain ⟨rfl, -⟩ := List.cons.inj (hn.symm.trans htext)
    rw [Path.isRootStart_of_isDigit he] at hd
    cases hd
  | quoted quote s => cases hroot
  | sign s => cases hroot

/-! ### Blanks in front of tokens -/

theorem skipSpace_blank (hc : isSpace c) (cs : List Char) : skipSpace (c :: cs) = skipSpace cs :=
  List.dropWhile_cons_of_pos hc

theorem length_skipSpace_le (cs : List Char) : (skipSpace cs).length ≤ cs.length :=
  Path.length_dropWhile_le _ _

theorem skipSpace_text (ht : t.IsWellFormed) (rest : List Char) : skipSpace (t.text ++ rest) = t.text ++ rest := by
  obtain ⟨c, cs, htext, hc, -⟩ := exists_text ht
  rw [htext, List.cons_append, skipSpace, List.dropWhile_cons_of_neg (by simp [hc])]

namespace Spaced

theorem skipSpace_nil (h : Spaced [] cs) : skipSpace cs = [] := by
  generalize hts : ([] : List Lexeme) = ts at h
  induction h with
  | nil => rfl
  | blank hc _ ih => rw [skipSpace_blank hc, ih hts]
  | token => cases hts

/-- What comes behind the blanks is the first token. -/
theorem cons_inv (h : Spaced (t :: ts) cs) : ∃ rest, skipSpace cs = t.text ++ rest ∧ Spaced ts rest ∧
    t.IsWellFormed ∧ (t.isWord → ts.head?.any isWord → rest.head?.any isSpace) := by
  generalize hts : t :: ts = us at h
  induction h with
  | nil => cases hts
  | blank hc _ ih => rw [skipSpace_blank hc]; exact ih hts
  | token ht h hapart =>
    cases hts
    exact ⟨_, skipSpace_text ht _, h, ht, hapart⟩

theorem skip (h : Spaced ts cs) : Spaced ts (skipSpace cs) := by
  induction h with
  | nil => exact .nil
  | blank hc _ ih => rwa [skipSpace_blank hc]
  | token ht h hapart =>
    rw [skipSpace_text ht]
    exact .token ht h hapart

/-- No word goes on in the text behind it. -/
theorem stops (h : Spaced ts rest) (hapart : ts.head?.any isWord → rest.head?.any isSpace) :
    Stops Path.isRootChar rest := by
  cases h with
  | nil => rintro c ⟨⟩
  | blank hc _ => exact .cons (isRootChar_of_isSpace hc)
  | @token t ts cs ht _ _ =>
    obtain ⟨d, ds, htext, hspace, hroot⟩ := exists_text ht
    rw [htext, List.cons_append] at hapart ⊢
    have hword : t.isWord = false := by
      by_contra hword
      have hblank : isSpace d := hapart (by simpa using hword)
      rw [hspace] at hblank
      cases hblank
    exact .cons (hroot.trans hword)

end Spaced

/-! ### Signs -/

/-- The text behind a token: it is what is left of a longer text. -/
structure Leaves (ts : List Lexeme) (cs rest : List Char) : Prop where
  spaced : Spaced ts rest
  shorter : rest.length < cs.length

theorem Leaves.skip (h : Leaves ts cs rest) : Leaves ts cs (skipSpace rest) :=
  ⟨h.spaced.skip, Nat.lt_of_le_of_lt (length_skipSpace_le rest) h.shorter⟩

theorem Leaves.trans {us : List Lexeme} {after : List Char} (h : Leaves us rest after) (hts : Leaves ts cs rest) :
    Leaves us cs after :=
  ⟨h.spaced, h.shorter.trans hts.shorter⟩

theorem Spaced.leaves (h : Spaced (t :: ts) cs) : ∃ rest, skipSpace cs = t.text ++ rest ∧ Leaves ts cs rest ∧
    t.IsWellFormed ∧ (t.isWord → ts.head?.any isWord → rest.head?.any isSpace) := by
  obtain ⟨rest, hcs, hts, ht, hapart⟩ := h.cons_inv
  obtain ⟨c, text, htext, -⟩ := exists_text ht
  have hle := length_skipSpace_le cs
  rw [hcs, htext, List.cons_append, List.length_cons, List.length_append] at hle
  exact ⟨rest, hcs, ⟨hts, by omega⟩, ht, hapart⟩

/-- The first character of the first token. -/
def front (ts : List Lexeme) : Option Char :=
  ts.head?.bind fun t => t.text.head?

theorem Spaced.head_skipSpace (h : Spaced ts cs) : (skipSpace cs).head? = front ts := by
  cases ts with
  | nil => rw [h.skipSpace_nil]; rfl
  | cons t ts =>
    obtain ⟨rest, hcs, -, ht, -⟩ := h.cons_inv
    obtain ⟨c, text, htext, -⟩ := exists_text ht
    rw [hcs]
    simp [front, htext]

theorem Spaced.front_eq (h : Spaced ts cs) (hc : cs.head? = some c) (hspace : isSpace c = false) :
    front ts = some c := by
  rw [← h.head_skipSpace]
  obtain ⟨rest, rfl⟩ := List.head?_eq_some_iff.1 hc
  rw [skipSpace, List.dropWhile_cons_of_neg (by simp [hspace])]
  rfl

theorem dropStart?_eq_none {p : Char} (ps : List Char) (h : cs.head? ≠ some p) : dropStart? (p :: ps) cs = none := by
  cases cs with
  | nil => rfl
  | cons c cs =>
    have hne : (p == c) = false := beq_eq_false_iff_ne.2 fun he => h (by rw [he]; rfl)
    rw [dropStart?, hne]
    rfl

theorem sign?_read (h : Spaced (.sign s :: ts) cs) : ∃ rest, sign? s cs = some rest ∧ Leaves ts cs rest := by
  obtain ⟨rest, hcs, hleaves, -⟩ := h.leaves
  refine ⟨_, ?_, hleaves.skip⟩
  rw [sign?, hcs, text, dropStart?_append]
  rfl

theorem skipSpace_of_sign? (h : sign? s cs = some rest) : skipSpace rest = rest := by
  obtain ⟨after, -, rfl⟩ := Option.map_eq_some_iff.1 h
  exact List.dropWhile_idempotent isSpace after

theorem sign?_eq_none {cs' : List Char} (h : Spaced ts cs) (hs : s.toList = c :: cs') (hfront : front ts ≠ some c) :
    sign? s cs = none := by
  rw [sign?, hs, dropStart?_eq_none _ (by rwa [h.head_skipSpace])]
  rfl

/-! ### Words -/

theorem word?_append (h : Stops Path.isRootChar rest) : word? w (w.toList ++ rest) = some rest := by
  have hstop : rest.head?.any Path.isRootChar = false := by
    cases hrest : rest.head? with
    | none => rfl
    | some c => exact h c hrest
  simp [word?, dropStart?_append, hstop]

theorem word?_read (h : Spaced (.word w :: ts) cs) : ∃ rest, word? w (skipSpace cs) = some rest ∧
    Leaves ts cs rest ∧ (ts.head?.any isWord → rest.head?.any isSpace) := by
  obtain ⟨rest, hcs, hleaves, -, hapart⟩ := h.leaves
  refine ⟨rest, ?_, hleaves, hapart rfl⟩
  rw [hcs]
  exact word?_append (hleaves.spaced.stops (hapart rfl))

theorem spacedWord?_read (h : Spaced (.word w :: ts) cs) :
    ∃ rest, spacedWord? w cs = some rest ∧ Leaves ts cs rest := by
  obtain ⟨rest, hword, hleaves, -⟩ := word?_read h
  exact ⟨_, by rw [spacedWord?, hword]; rfl, hleaves.skip⟩

theorem append_of_word? (h : word? w cs = some rest) : cs = w.toList ++ rest ∧ Stops Path.isRootChar rest := by
  obtain ⟨hdrop, hstop⟩ := Option.filter_eq_some_iff.1 h
  refine ⟨dropStart?_eq_some hdrop, fun c hc => ?_⟩
  rw [Option.mem_def.1 hc] at hstop
  simpa using hstop

/-- A word ends where no letter, digit or underscore goes on with it, so another word is not read. -/
theorem word?_eq_none (h : Spaced ts cs) (hw : Path.IsRoot w) (hhead : ts.head? ≠ some (.word w)) :
    word? w (skipSpace cs) = none := by
  by_contra hsome
  obtain ⟨after, hafter⟩ := Option.ne_none_iff_exists'.1 hsome
  obtain ⟨htext, hstop⟩ := append_of_word? hafter
  have hchars := isRootChar_of_isRoot hw
  obtain ⟨d, ds, hwd, hd, -⟩ := id hw
  cases ts with
  | nil => simp [h.skipSpace_nil, hwd] at htext
  | cons t ts =>
    obtain ⟨rest, hcs, hleaves, ht, hapart⟩ := h.leaves
    have hword : t.isWord := by
      obtain ⟨c, text, htc, -, hroot⟩ := exists_text ht
      rw [hcs, htc, hwd] at htext
      rw [← hroot, (List.cons.inj htext).1, Path.isRootChar_of_isRootStart hd]
    -- both are the longest run of such characters at the front
    have hsame : t.text = w.toList := by
      rw [← takeWhile_of_stops (isRootChar_of_isWord ht hword) (hleaves.spaced.stops (hapart hword)), ← hcs, htext,
        takeWhile_of_stops hchars hstop]
    exact hhead (congrArg some (eq_word ht hw hsame))

theorem spacedWord?_eq_none (h : Spaced ts cs) (hw : Path.IsRoot w) (hhead : ts.head? ≠ some (.word w)) :
    spacedWord? w cs = none := by
  rw [spacedWord?, word?_eq_none h hw hhead]
  rfl

theorem isRoot_of_chars (h : w.toList.head?.any Path.isRootStart && w.toList.tail.all Path.isRootChar) :
    Path.IsRoot w := by
  obtain ⟨hhead, htail⟩ := Bool.and_eq_true_iff.1 h
  obtain ⟨c, hc, hstart⟩ := (Option.any_eq_true ..).1 hhead
  obtain ⟨cs, hcs⟩ := List.head?_eq_some_iff.1 hc
  rw [hcs] at htail
  exact ⟨c, cs, hcs, hstart, htail⟩

theorem isRoot_of_keyword (h : w ∈ keywords) : Path.IsRoot w := by
  have hall : ∀ w ∈ keywords, w.toList.head?.any Path.isRootStart && w.toList.tail.all Path.isRootChar := by
    decide +kernel
  exact isRoot_of_chars (hall w h)

end MarkupTemplate.Host
