import MarkupTemplate.Text.Blank
import MarkupTemplate.Text.Letter

/-!
# Entries of arguments

Directives with several entries separate them by semicolons; a doubled semicolon stands for one inside
an entry. An entry is taken apart word by word.
-/

namespace MarkupTemplate

open Text

/-- The parts between single semicolons; `part` holds the one under way, its last character first. -/
def splitEntriesFrom (part : List Char) : List Char → List (List Char)
  | [] => [part.reverse]
  | ';' :: ';' :: cs => splitEntriesFrom (';' :: part) cs
  | ';' :: cs => part.reverse :: splitEntriesFrom [] cs
  | c :: cs => splitEntriesFrom (c :: part) cs

/-- The entries of an argument without the blanks around them; empty ones are left out. -/
def splitEntries (argument : String) : List String :=
  let parts := (splitEntriesFrom [] argument.toList).map trim
  (parts.filter fun part => !part.isEmpty).map String.ofList

/-- The first word of a text, and what follows it. -/
def firstWord (cs : List Char) : List Char × List Char :=
  let text := trimStart cs
  (text.takeWhile fun c => !isBlank c, trimStart (text.dropWhile fun c => !isBlank c))

/-- A name of variables, parameters and aliases: letters, digits, underscores and hyphens, the first
one a letter or an underscore. -/
def isIdentifier : List Char → Bool
  | [] => false
  | c :: cs =>
    (isAlphabetic c || c == '_') && cs.all fun c => isAlphanumeric c || c == '_' || c == '-'

/-- A name of attributes. -/
def isAttributeName (cs : List Char) : Bool :=
  !cs.isEmpty && cs.all fun c => isAlphanumeric c || c == '_' || c == '-' || c == ':' || c == '.'

end MarkupTemplate
