import QueryHost.Text.Digest

/-!
# Decoding bytes

A text is encoded in UTF-8. Bytes that are no encoding can still be shown, with replacement
characters (`decodeLossily`).
-/

namespace QueryHost

/-- The text that bytes are the encoding of. -/
def decode? (bytes : Bytes) : Option String := String.fromUTF8? (ByteArray.mk bytes.toArray)

/-- A decoder in the middle of a text: what is decoded, the last character first, the value of the
character that has begun, how many bytes of it are missing, and between which bounds the next one of
them has to be. -/
structure Decoder where
  decoded : List Char := []
  value : Nat := 0
  missing : Nat := 0
  least : Nat := 0x80
  most : Nat := 0xbf

namespace Decoder

def replacement : Char := '\uFFFD'

/-- Takes a byte that begins a character, or is none. -/
def start (s : Decoder) (b : Nat) : Decoder :=
  if b < 0x80 then { s with decoded := Char.ofNat b :: s.decoded, missing := 0 }
  else if 0xc2 ≤ b ∧ b ≤ 0xdf then
    { s with value := b - 0xc0, missing := 1, least := 0x80, most := 0xbf }
  else if 0xe0 ≤ b ∧ b ≤ 0xef then
    { s with
      value := b - 0xe0
      missing := 2
      least := if b = 0xe0 then 0xa0 else 0x80
      most := if b = 0xed then 0x9f else 0xbf }
  else if 0xf0 ≤ b ∧ b ≤ 0xf4 then
    { s with
      value := b - 0xf0
      missing := 3
      least := if b = 0xf0 then 0x90 else 0x80
      most := if b = 0xf4 then 0x8f else 0xbf }
  else { s with decoded := replacement :: s.decoded, missing := 0 }

/-- What is missing of the character that has begun does not come. -/
def abandon (s : Decoder) : Decoder :=
  if s.missing = 0 then s else { s with decoded := replacement :: s.decoded, missing := 0 }

def take (s : Decoder) (byte : UInt8) : Decoder :=
  let b := byte.toNat
  if s.missing ≠ 0 ∧ s.least ≤ b ∧ b ≤ s.most then
    let value := 64 * s.value + (b - 0x80)
    if s.missing = 1 then { s with decoded := Char.ofNat value :: s.decoded, missing := 0 }
    else { s with value, missing := s.missing - 1, least := 0x80, most := 0xbf }
  else s.abandon.start b

end Decoder

/-- The text of bytes, with one replacement character for each longest part that begins a character
and does not end it, and for each other byte that is out of place. -/
def decodeLossily (bytes : Bytes) : String :=
  String.ofList ((bytes.foldl Decoder.take {}).abandon.decoded.reverse)

end QueryHost
