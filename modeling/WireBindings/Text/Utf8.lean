/-!
# UTF-8

Names and declarations travel as UTF-8. Encoding is character by character. Decoding reads the
octets from front to back and keeps, between two octets of one character, what has been read of it
(`Unfinished`). The first octet of a character fixes how many follow and which values the *second*
may take: that range is what excludes overlong forms (`E0`, `F0`), surrogates (`ED`) and code points
above U+10FFFF (`F4`), so that a bad sequence is recognised at the earliest octet at which no
character can begin this way.

A refusal says how many octets form the valid beginning of the text, and how many octets after it
are at fault; a text that ends inside a so far valid character is *incomplete* instead.
-/

namespace WireBindings.Text.Utf8

/-- The octets of a text. -/
def encode (text : String) : List UInt8 :=
  text.toList.flatMap String.utf8EncodeChar

/-- Why octets are not the encoding of a text. -/
inductive Fault where
  /-- After `valid` good octets come `length` octets that begin no character. -/
  | invalid (valid length : Nat)
  /-- After `valid` good octets the input ends inside a character. -/
  | incomplete (valid : Nat)
deriving DecidableEq, Repr

namespace Fault

/-- The fault in words. -/
def message : Fault → String
  | invalid valid length => s!"invalid utf-8 sequence of {length} bytes from index {valid}"
  | incomplete valid => s!"incomplete utf-8 byte sequence from index {valid}"

end Fault

/-- A character of which some octets have been read and at least one is missing. -/
structure Unfinished where
  /-- The bits read so far. -/
  value : Nat
  /-- The number of octets read so far. -/
  seen : Nat
  /-- The number of octets to come after the next one. -/
  afterNext : Nat
  /-- The least value of the next octet. -/
  lowest : UInt8
  /-- The greatest value of the next octet. -/
  highest : UInt8
deriving DecidableEq, Repr

/-- What the first octet of a character of several octets says, or `none` if no such character
begins with it. -/
def Unfinished.start? (octet : UInt8) : Option Unfinished :=
  -- below 0xC0 an octet continues a character; 0xC0 and 0xC1 would begin overlong forms
  if octet < 0xC2 then none
  else if octet < 0xE0 then some ⟨octet.toNat % 32, 1, 0, 0x80, 0xBF⟩
  else if octet = 0xE0 then some ⟨octet.toNat % 16, 1, 1, 0xA0, 0xBF⟩
  else if octet = 0xED then some ⟨octet.toNat % 16, 1, 1, 0x80, 0x9F⟩
  else if octet < 0xF0 then some ⟨octet.toNat % 16, 1, 1, 0x80, 0xBF⟩
  else if octet = 0xF0 then some ⟨octet.toNat % 8, 1, 2, 0x90, 0xBF⟩
  else if octet < 0xF4 then some ⟨octet.toNat % 8, 1, 2, 0x80, 0xBF⟩
  else if octet = 0xF4 then some ⟨octet.toNat % 8, 1, 2, 0x80, 0x8F⟩
  else none

/-- Decodes the octets that follow `valid` octets of whole characters and, if `some p`, the octets
of the character `p` that is under way. -/
def decodeFrom (valid : Nat) : Option Unfinished → List UInt8 → Except Fault (List Char)
  | none, [] => .ok []
  | some _, [] => .error (.incomplete valid)
  | none, octet :: rest =>
    -- an octet below 0x80 is a character by itself
    if octet < 0x80 then
      (Char.ofNat octet.toNat :: ·) <$> decodeFrom (valid + 1) none rest
    else
      match Unfinished.start? octet with
      | none => .error (.invalid valid 1)
      | some p => decodeFrom valid (some p) rest
  | some p, octet :: rest =>
    if p.lowest ≤ octet ∧ octet ≤ p.highest then
      -- six more bits of the character
      let value := p.value * 64 + octet.toNat % 64
      match p.afterNext with
      | 0 => (Char.ofNat value :: ·) <$> decodeFrom (valid + p.seen + 1) none rest
      -- only the second octet has a range of its own
      | n + 1 => decodeFrom valid (some ⟨value, p.seen + 1, n, 0x80, 0xBF⟩) rest
    -- the octets seen before this one are at fault, and this one may begin a new character
    else .error (.invalid valid p.seen)

/-- The text that the octets encode. -/
def decode (octets : List UInt8) : Except Fault String :=
  String.ofList <$> decodeFrom 0 none octets

end WireBindings.Text.Utf8
