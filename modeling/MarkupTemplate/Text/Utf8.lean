/-!
# Reading UTF-8

A text is read from octets one character at a time. Octets that are no UTF-8 are reported with the
index of the character that fails and the number of octets it had already taken, or as incomplete
when the octets end inside a character.
-/

namespace MarkupTemplate.Text

/-- Why octets are no UTF-8. -/
structure Utf8Fault where
  /-- Index of the first octet of the failing character. -/
  index : Nat
  /-- Octets taken before the failure; absent when the octets ended too early. -/
  taken : Option Nat
  deriving DecidableEq, Repr

/-- The fault in words. -/
def Utf8Fault.message (fault : Utf8Fault) : String :=
  match fault.taken with
  | some n => s!"invalid utf-8 sequence of {n} bytes from index {fault.index}"
  | none => s!"incomplete utf-8 byte sequence from index {fault.index}"

/-- A character under way: octets taken, octets owed, bounds of the next one, and bits so far. -/
structure Utf8Pending where
  taken : Nat
  owed : Nat
  low : Nat
  high : Nat
  bits : Nat

/-- What a first octet beyond ASCII announces. -/
def utf8Lead? (b : Nat) : Option Utf8Pending :=
  if 0xc2 ≤ b ∧ b ≤ 0xdf then some ⟨1, 1, 0x80, 0xbf, b - 0xc0⟩
  else if b = 0xe0 then some ⟨1, 2, 0xa0, 0xbf, 0⟩
  else if b = 0xed then some ⟨1, 2, 0x80, 0x9f, 0xd⟩
  else if 0xe1 ≤ b ∧ b ≤ 0xef then some ⟨1, 2, 0x80, 0xbf, b - 0xe0⟩
  else if b = 0xf0 then some ⟨1, 3, 0x90, 0xbf, 0⟩
  else if b = 0xf4 then some ⟨1, 3, 0x80, 0x8f, 4⟩
  else if 0xf1 ≤ b ∧ b ≤ 0xf3 then some ⟨1, 3, 0x80, 0xbf, b - 0xf0⟩
  else none

/-- Reads characters from `octets`, the next one starting at `index`. -/
def decodeUtf8From (index : Nat) :
    Option Utf8Pending → List UInt8 → Except Utf8Fault (List Char)
  | none, [] => .ok []
  | some _, [] => .error ⟨index, none⟩
  | none, b :: rest =>
    if b.toNat < 0x80 then (Char.ofNat b.toNat :: ·) <$> decodeUtf8From (index + 1) none rest
    else
      match utf8Lead? b.toNat with
      | some pending => decodeUtf8From index (some pending) rest
      | none => .error ⟨index, some 1⟩
  | some p, b :: rest =>
    if p.low ≤ b.toNat ∧ b.toNat ≤ p.high then
      let bits := p.bits * 64 + (b.toNat - 0x80)
      if p.owed ≤ 1 then
        (Char.ofNat bits :: ·) <$> decodeUtf8From (index + p.taken + 1) none rest
      else decodeUtf8From index (some ⟨p.taken + 1, p.owed - 1, 0x80, 0xbf, bits⟩) rest
    else .error ⟨index, some p.taken⟩

/-- The text held by `octets`. -/
def decodeUtf8 (octets : List UInt8) : Except Utf8Fault String :=
  String.ofList <$> decodeUtf8From 0 none octets

/-- The octets of a text. -/
def encodeUtf8 (s : String) : List UInt8 :=
  s.toUTF8.toList

end MarkupTemplate.Text
