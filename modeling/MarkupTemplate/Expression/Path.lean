import MarkupTemplate.Text.Letter
import MarkupTemplate.Text.Split

/-!
# Paths

A path is a variable followed by segments, each a field name or an index. A written path separates
them by slashes or points; inside a text only slashes count, so that punctuation stays text.
-/

namespace MarkupTemplate

open Text

/-- A variable and the segments that lead on from it. -/
structure Path where
  root : String
  segments : List String
  deriving DecidableEq, Repr, Inhabited

namespace Path

/-- The path written with slashes. -/
def text (p : Path) : String :=
  p.segments.foldl (fun text segment => text ++ "/" ++ segment) p.root

/-- The first character of a variable. -/
def isRootStart (c : Char) : Bool :=
  isAlphabetic c || c == '_'

/-- A character of a variable. -/
def isRootChar (c : Char) : Bool :=
  isAlphanumeric c || c == '_'

/-- A character of a segment. -/
def isSegmentChar (c : Char) : Bool :=
  isRootChar c || c == '-'

/-- The longest variable at the front of a text. -/
def root? : List Char → Option (List Char × List Char)
  | [] => none
  | c :: cs =>
    if isRootStart c then some (c :: cs.takeWhile isRootChar, cs.dropWhile isRootChar) else none

/-- The separators of written paths. -/
def isSeparator (c : Char) : Bool :=
  c == '/' || c == '.'

theorem length_dropWhile_le {α : Type} (p : α → Bool) (l : List α) :
    (l.dropWhile p).length ≤ l.length :=
  (List.dropWhile_sublist p).length_le

/-- The segments at the front of a text, each behind a separator, and the rest. -/
def readSegments (separates : Char → Bool) : List Char → List String × List Char
  | [] => ([], [])
  | c :: cs =>
    if separates c && !(cs.takeWhile isSegmentChar).isEmpty then
      have := length_dropWhile_le isSegmentChar cs
      let more := readSegments separates (cs.dropWhile isSegmentChar)
      (String.ofList (cs.takeWhile isSegmentChar) :: more.1, more.2)
    else ([], c :: cs)
termination_by cs => cs.length

/-- The longest path at the front of a text. -/
def front? (separates : Char → Bool) (cs : List Char) : Option (Path × List Char) :=
  (root? cs).map fun (root, rest) =>
    (⟨String.ofList root, (readSegments separates rest).1⟩, (readSegments separates rest).2)

/-- The path that a text is. -/
def parse? (cs : List Char) : Option Path :=
  match front? isSeparator cs with
  | some (p, []) => some p
  | _ => none

/-- The path at the front of a text, with slashes alone between its segments. -/
def inText? (cs : List Char) : Option (Path × List Char) :=
  front? (· == '/') cs

theorem length_readSegments_le (separates : Char → Bool) (cs : List Char) :
    (readSegments separates cs).2.length ≤ cs.length := by
  fun_induction readSegments separates cs with
  | case1 => simp
  | case2 c cs h hle more ih =>
    simp only [List.length_cons]
    exact Nat.le_trans ih (by omega)
  | case3 => simp

theorem length_lt_of_front? {separates : Char → Bool} {cs rest : List Char} {p : Path}
    (h : front? separates cs = some (p, rest)) : rest.length < cs.length := by
  obtain ⟨⟨root, r⟩, hr, hp⟩ := Option.map_eq_some_iff.mp h
  cases hp
  cases cs with
  | nil => cases hr
  | cons c cs =>
    simp only [root?] at hr
    split at hr
    · cases hr
      have := length_readSegments_le separates (cs.dropWhile isRootChar)
      have := length_dropWhile_le isRootChar cs
      simp only [List.length_cons]
      omega
    · cases hr

end Path

end MarkupTemplate
