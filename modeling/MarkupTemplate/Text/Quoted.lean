import MarkupTemplate.Text.Printable

/-!
# Quoted text

The form in which messages show a piece of text: between double quotes, with escapes for the quote,
the backslash, the usual controls, and by number for every other character that does not print by
itself.
-/

namespace MarkupTemplate.Text

/-- A code point in hexadecimal, between braces after `\u`. -/
def escapeByNumber (c : Char) : List Char :=
  '\\' :: 'u' :: '\x7b' :: Nat.toDigits 16 c.toNat ++ ['\x7d']

/-- One character as it stands between the quotes. -/
def quoteChar (c : Char) : List Char :=
  if c = '"' then ['\\', '"']
  else if c = '\\' then ['\\', '\\']
  else if c = '\n' then ['\\', 'n']
  else if c = '\r' then ['\\', 'r']
  else if c = '\t' then ['\\', 't']
  else if c = Char.ofNat 0 then ['\\', '0']
  else if isPrintable c then [c]
  else escapeByNumber c

/-- The text between quotes. -/
def quote (s : String) : String :=
  String.ofList ('"' :: s.toList.flatMap quoteChar ++ ['"'])

end MarkupTemplate.Text
