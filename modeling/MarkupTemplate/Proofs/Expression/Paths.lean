import MarkupTemplate.Expression.Parser
import MarkupTemplate.Proofs.Text.Blanks
import MarkupTemplate.Proofs.Text.Stops

/-!
# Paths that are written out

A variable with segments behind it, each after a separator, is read as that path (`Path.parse?_written`). What is
read as a path is this path as an expression too (`Expression.parse_of_path`): it has no blanks to trim, no colon
that would end a type and no bar that would end an alternative, and a variable does not begin like a number. Only a
sentinel's word that stands alone is the sentinel and no path.
-/

namespace MarkupTemplate

open Text

/-! ### Characters of paths -/

namespace Path

variable {c : Char} {cs rest : List Char}

/-- A character that stands somewhere in a written path. -/
def isPathChar (c : Char) : Bool :=
  isSegmentChar c || isSeparator c

theorem isSegmentChar_of_isRootChar (h : isRootChar c) : isSegmentChar c := by
  simp [isSegmentChar, h]

theorem isRootChar_of_isRootStart (h : isRootStart c) : isRootChar c := by
  simp only [isRootStart, isRootChar, isAlphanumeric, Bool.or_eq_true] at h ⊢
  tauto

theorem isSegmentChar_of_isSeparator (h : isSeparator c) : isSegmentChar c = false := by
  simp only [isSeparator, Bool.or_eq_true, beq_iff_eq] at h
  rcases h with rfl | rfl <;> decide +kernel

theorem isRootChar_of_isSeparator (h : isSeparator c) : isRootChar c = false :=
  (Bool.or_eq_false_iff.1 (isSegmentChar_of_isSeparator h)).1

theorem isPathChar_of_isBlank (h : isBlank c) : isPathChar c = false := by
  have hne : ∀ d, isBlank d = false → c ≠ d := fun d hd he => by
    rw [he, hd] at h
    cases h
  simp [isPathChar, isSegmentChar, isRootChar, isSeparator, isAlphanumeric_of_isBlank h, hne '_' rfl, hne '-' rfl,
    hne '/' rfl, hne '.' rfl]

theorem isRootStart_of_isDigit (h : c.isDigit) : isRootStart c = false := by
  refine eq_false_of_toNat_mem (List.range' 48 10) (by decide +kernel) ?_
  simp only [Char.isDigit, Bool.and_eq_true, decide_eq_true_eq, ge_iff_le, UInt32.le_iff_toNat_le] at h
  have hcode : 48 ≤ c.toNat ∧ c.toNat ≤ 57 := h
  rw [List.mem_range'_1]
  omega

/-! ### Reading what is written -/

/-- A variable: the first character is a letter or an underscore. -/
def IsRoot (root : String) : Prop :=
  ∃ c cs, root.toList = c :: cs ∧ isRootStart c ∧ cs.all isRootChar

/-- A segment: it is not empty. -/
structure IsSegment (segment : String) : Prop where
  nonempty : segment ≠ ""
  chars : segment.toList.all isSegmentChar

/-- Segments behind each other, each after its separator. -/
def written (segments : List (Char × String)) : List Char :=
  segments.flatMap fun s => s.1 :: s.2.toList

/-- The separators are separators and the segments are segments. -/
def AreWritable (segments : List (Char × String)) : Prop :=
  ∀ s ∈ segments, isSeparator s.1 ∧ IsSegment s.2

variable {root : String} {segments : List (Char × String)} {p : Path}

theorem stops_written {kind : Char → Bool} (hkind : ∀ c, isSeparator c → kind c = false)
    (h : AreWritable segments) : Stops kind (written segments) := by
  cases segments with
  | nil => rintro c ⟨⟩
  | cons s segments => exact .cons (hkind _ (h s List.mem_cons_self).1)

theorem readSegments_cons_append {segment : String} (hc : isSeparator c) (h : IsSegment segment)
    (hrest : Stops isSegmentChar rest) :
    readSegments isSeparator (c :: (segment.toList ++ rest)) =
      (segment :: (readSegments isSeparator rest).1, (readSegments isSeparator rest).2) := by
  have hne : segment.toList.isEmpty = false := by simpa using h.nonempty
  rw [readSegments]
  simp only [takeWhile_of_stops h.chars hrest, dropWhile_of_stops h.chars hrest, hc, hne, Bool.not_false,
    Bool.and_self, if_true, String.ofList_toList]

theorem readSegments_written (h : AreWritable segments) :
    readSegments isSeparator (written segments) = (segments.map (·.2), []) := by
  induction segments with
  | nil => rw [written, List.flatMap_nil, readSegments, List.map_nil]
  | cons s segments ih =>
    obtain ⟨hsep, hseg⟩ := h s List.mem_cons_self
    have hrest : AreWritable segments := fun t ht => h t (List.mem_cons_of_mem _ ht)
    have hstops := stops_written (fun _ => isSegmentChar_of_isSeparator) hrest
    rw [written, List.flatMap_cons, ← written, List.cons_append, readSegments_cons_append hsep hseg hstops, ih hrest,
      List.map_cons]

/-- A path that is written out is read. -/
theorem parse?_written (hroot : IsRoot root) (h : AreWritable segments) :
    parse? (root.toList ++ written segments) = some ⟨root, segments.map (·.2)⟩ := by
  obtain ⟨c, cs, hchars, hc, hcs⟩ := hroot
  have hstops := stops_written (fun _ => isRootChar_of_isSeparator) h
  have hread : root? (root.toList ++ written segments) = some (root.toList, written segments) := by
    rw [hchars, List.cons_append, root?, if_pos hc, takeWhile_of_stops hcs hstops, dropWhile_of_stops hcs hstops]
  rw [parse?, front?, hread, Option.map_some]
  dsimp only
  rw [readSegments_written h, String.ofList_toList]

/-! ### What is read as a path -/

theorem forall_isPathChar_of_readSegments (h : (readSegments isSeparator cs).2 = []) :
    ∀ c ∈ cs, isPathChar c := by
  fun_induction readSegments isSeparator cs with
  | case1 => simp
  | case2 c cs hc hle more ih =>
    rw [← List.takeWhile_append_dropWhile (p := isSegmentChar) (l := cs), List.forall_mem_cons,
      List.forall_mem_append]
    refine ⟨by simp [isPathChar, (Bool.and_eq_true_iff.1 hc).1], fun d hd => ?_, ih h⟩
    simp [isPathChar, List.mem_takeWhile_imp hd]
  | case3 => cases h

/-- A text that is a path begins like a variable, and all its characters are those of paths. -/
theorem chars_of_parse? (h : parse? cs = some p) :
    (∃ c rest, cs = c :: rest ∧ isRootStart c) ∧ ∀ c ∈ cs, isPathChar c := by
  unfold parse? at h
  split at h
  · next q hfront =>
    obtain ⟨⟨front, rest⟩, hroot, hread⟩ := Option.map_eq_some_iff.1 hfront
    have hrest := forall_isPathChar_of_readSegments (congrArg Prod.snd hread)
    cases cs with
    | nil => cases hroot
    | cons c cs =>
      simp only [root?] at hroot
      split at hroot
      · next hc =>
        cases hroot
        refine ⟨⟨c, cs, rfl, hc⟩, ?_⟩
        have hpath : ∀ d, isRootChar d → isPathChar d := fun d hd => by
          simp [isPathChar, isSegmentChar_of_isRootChar hd]
        rw [← List.takeWhile_append_dropWhile (p := isRootChar) (l := cs), List.forall_mem_cons,
          List.forall_mem_append]
        exact ⟨hpath c (isRootChar_of_isRootStart hc), fun d hd => hpath d (List.mem_takeWhile_imp hd), hrest⟩
      · cases hroot
  · cases h

end Path

/-! ### Paths as expressions -/

theorem splitFirst_of_notMem {sep : Char} {cs : List Char} (h : sep ∉ cs) : splitFirst sep cs = none := by
  have hnil : cs.dropWhile (· != sep) = [] :=
    List.dropWhile_eq_nil_iff.2 fun c hc => by simpa using fun he : c = sep => h (he ▸ hc)
  rw [splitFirst, hnil]

namespace Expression

variable {source cs : List Char} {p : Path}

/-- The sentinel that a word stands for. -/
def sentinel? : String → Option Expression
  | "nothing" | "null" => some nothing
  | "default" => some default
  | _ => none

/-- A text that has one alternative, without a type and with no blanks around it, is read as that. -/
theorem parseChars_of_simple (htrim : trim cs = cs) (hcolon : ':' ∉ cs) (hbar : '|' ∉ cs) :
    parseChars cs = simple cs cs := by
  have htype : splitType? cs = none := by rw [splitType?, splitFirst_of_notMem hcolon, Option.filter_none]
  have halternatives : parseAlternatives cs cs = return [← simple cs cs] := by
    rw [parseAlternatives]
    split
    · next heq => rw [htype] at heq; cases heq
    · split
      · next heq => rw [splitFirst_of_notMem hbar] at heq; cases heq
      · rfl
  rw [parseChars, htrim, halternatives]
  cases simple cs cs <;> rfl

theorem literal?_of_isRootStart {c : Char} (h : Path.isRootStart c) : literal? (c :: cs) = none := by
  have hdigit : c.isDigit = false := by
    by_contra hc
    rw [Path.isRootStart_of_isDigit (by simpa using hc)] at h
    cases h
  have hminus : c ≠ '-' := by
    rintro rfl
    exact absurd h (by decide)
  unfold literal?
  split
  · next heq =>
    cases heq
    exact absurd rfl hminus
  · simp [hdigit]

theorem simple_of_path (h : Path.parse? cs = some p) :
    simple source cs = .ok ((sentinel? (String.ofList cs)).getD (path p)) := by
  obtain ⟨⟨c, rest, rfl, hc⟩, -⟩ := Path.chars_of_parse? h
  unfold simple
  split
  · next heq => simp at heq
  · next heq => rw [heq]; rfl
  · next heq => rw [heq]; rfl
  · next heq => rw [heq]; rfl
  · next hnothing hnull hdefault =>
    have hword : sentinel? (String.ofList (c :: rest)) = none := by
      unfold sentinel?
      split
      · next heq => exact absurd heq hnothing
      · next heq => exact absurd heq hnull
      · next heq => exact absurd heq hdefault
      · rfl
    rw [hword, literal?_of_isRootStart hc, readPath, h]
    rfl

/-- A text that is a path is this path as an expression, unless it is the word of a sentinel. -/
theorem parse_of_path (h : Path.parse? cs = some p) :
    parse (String.ofList cs) = .ok ((sentinel? (String.ofList cs)).getD (path p)) := by
  obtain ⟨-, hchars⟩ := Path.chars_of_parse? h
  have hnot : ∀ {c}, Path.isPathChar c = false → c ∉ cs := fun hc hmem => by
    rw [hchars _ hmem] at hc
    cases hc
  have htrim : trim cs = cs := trim_of_forall fun c hc => by
    by_contra hb
    exact hnot (Path.isPathChar_of_isBlank (by simpa using hb)) hc
  rw [parse, String.toList_ofList,
    parseChars_of_simple htrim (hnot (by decide +kernel)) (hnot (by decide +kernel)), simple_of_path h]

/-- A name as an expression: the sentinel whose word it is, or the variable. -/
def ofName (name : String) : Expression :=
  (sentinel? name).getD (path ⟨name, []⟩)

theorem parse_of_isRoot {name : String} (h : Path.IsRoot name) : parse name = .ok (ofName name) := by
  have hread : Path.parse? name.toList = some ⟨name, []⟩ := by
    have hnone : Path.AreWritable [] := List.forall_mem_nil _
    have := Path.parse?_written h hnone
    rwa [Path.written, List.flatMap_nil, List.append_nil] at this
  rw [← String.ofList_toList (s := name), parse_of_path hread, String.ofList_toList]
  rfl

theorem sentinel?_of_isSeparator {word : String} {c : Char} (hc : Path.isSeparator c) (h : c ∈ word.toList) :
    sentinel? word = none := by
  have hnot (word : String) (hword : word.toList.all (!Path.isSeparator ·)) : c ∉ word.toList := fun h => by
    have := List.all_eq_true.1 hword c h
    rw [hc] at this
    cases this
  unfold sentinel?
  split
  · exact absurd h (hnot _ (by decide))
  · exact absurd h (hnot _ (by decide))
  · exact absurd h (hnot _ (by decide))
  · rfl

/-- A variable with a segment behind it is a path, whatever word it is. -/
theorem parse_of_segments {root : String} {s : Char × String} {segments : List (Char × String)}
    (hroot : Path.IsRoot root) (h : Path.AreWritable (s :: segments)) :
    parse (root ++ String.ofList (Path.written (s :: segments))) =
      .ok (path ⟨root, s.2 :: segments.map (·.2)⟩) := by
  have htext : root ++ String.ofList (Path.written (s :: segments)) =
      String.ofList (root.toList ++ Path.written (s :: segments)) := by
    rw [String.ofList_append, String.ofList_toList]
  have hsentinel : sentinel? (String.ofList (root.toList ++ Path.written (s :: segments))) = none := by
    refine sentinel?_of_isSeparator (h s List.mem_cons_self).1 ?_
    rw [String.toList_ofList]
    exact List.mem_append_right _ List.mem_cons_self
  rw [htext, parse_of_path (Path.parse?_written hroot h), hsentinel]
  rfl

end Expression

end MarkupTemplate
