import MarkupTemplate.Text.Split

/-!
# File names of stored programs

A pattern names the file of each key: a fixed text before the key and one after it. It is written with
one placeholder and holds no separator of directories.
-/

namespace MarkupTemplate

open Text

/-- What stands for the key in a pattern. -/
def keyPlaceholder : String := "\x7bkey\x7d"

/-- What is wrong with a pattern. -/
inductive PatternProblem where
  | noPlaceholder
  | severalPlaceholders
  | path
  deriving DecidableEq, Repr

/-- The problem in words. -/
def PatternProblem.message : PatternProblem → String
  | noPlaceholder => "missing the " ++ keyPlaceholder ++ " placeholder"
  | severalPlaceholders => "the " ++ keyPlaceholder ++ " placeholder must appear exactly once"
  | path => "the pattern names a file, not a path"

/-- The texts around the key in file names. -/
structure FilePattern where
  front : List Char
  back : List Char
  deriving DecidableEq, Repr, Inhabited

namespace FilePattern

/-- The pattern that a text writes. -/
def parse (pattern : String) : Except PatternProblem FilePattern :=
  match splitAround? keyPlaceholder.toList pattern.toList with
  | none => .error .noPlaceholder
  | some (front, back) =>
    if occursIn keyPlaceholder.toList back then .error .severalPlaceholders
    else if pattern.toList.any fun c => c == '/' || c == '\\' then .error .path
    else .ok ⟨front, back⟩

/-- The file of a key. -/
def fileName (p : FilePattern) (key : String) : String :=
  String.ofList (p.front ++ key.toList ++ p.back)

/-- What stands for the key in a file name of this pattern. -/
def middle? (p : FilePattern) (name : String) : Option String :=
  ((dropStart? p.front name.toList).bind (dropEnd? p.back)).map String.ofList

end FilePattern

end MarkupTemplate
