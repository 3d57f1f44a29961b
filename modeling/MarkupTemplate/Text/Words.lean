import MarkupTemplate.Text.Casing
import MarkupTemplate.Text.Letter
import MarkupTemplate.Text.Split

/-!
# Words and parts of texts

Cutting a text at every occurrence of another text or at blanks, replacing, and title case.
-/

namespace MarkupTemplate.Text

theorem length_splitAround? {mark cs : List Char} {parts : List Char × List Char}
    (h : splitAround? mark cs = some parts) : parts.1.length + mark.length + parts.2.length =
      cs.length := by
  rw [splitAround?_append h, List.length_append, List.length_append]

/-- The parts of a text between the occurrences of `first :: mark`. -/
def partsAround (first : Char) (mark cs : List Char) : List (List Char) :=
  match h : splitAround? (first :: mark) cs with
  | none => [cs]
  | some parts =>
    have := length_splitAround? h
    parts.1 :: partsAround first mark parts.2
termination_by cs.length
decreasing_by simp only [List.length_cons] at this; omega

/-- The parts of a text between the occurrences of another; an empty text stands before, between and
after all characters. -/
def split (mark cs : List Char) : List (List Char) :=
  match mark with
  | [] => [] :: cs.map (fun c => [c]) ++ [[]]
  | first :: mark => partsAround first mark cs

/-- The parts with `mark` between them. -/
def join (mark : List Char) (parts : List (List Char)) : List Char :=
  mark.intercalate parts

/-- The text with every occurrence of `old` replaced. -/
def replace (old new cs : List Char) : List Char :=
  join new (split old cs)

/-- The words of a text whose first word begins with `word`, given from its end. -/
def wordsFrom (word : List Char) : List Char → List (List Char)
  | [] => if word.isEmpty then [] else [word.reverse]
  | c :: cs =>
    if isBlank c then
      if word.isEmpty then wordsFrom [] cs else word.reverse :: wordsFrom [] cs
    else wordsFrom (c :: word) cs

/-- The runs of characters that are no blanks. -/
def words (cs : List Char) : List (List Char) :=
  wordsFrom [] cs

/-- Title case: a letter at the start of a word in upper case, any other character in lower case. -/
def titleFrom (wordStart : Bool) : List Char → List Char
  | [] => []
  | c :: cs => (if wordStart then upperChar c else lowerChar c) ++ titleFrom (!isAlphanumeric c) cs

/-- Title case of a text. -/
def title (s : String) : String :=
  String.ofList (titleFrom true s.toList)

end MarkupTemplate.Text
