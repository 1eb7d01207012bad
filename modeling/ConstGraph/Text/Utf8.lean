/-!
# UTF-8

Bytes are decoded one character at a time. Bytes that are no character are
gathered into faults: a fault is the longest run of bytes that could still
have started a character, or a single byte that could not, and decoding
goes on with the byte after it.
-/

namespace ConstGraph.Text

namespace Utf8

/-- A character begun: how many bytes it still needs, the range the next
one must lie in, and the bits read so far. -/
structure Partial where
  /-- Bytes still needed, less one. -/
  more : Nat
  /-- The least next byte. -/
  low : Nat
  /-- The greatest next byte. -/
  high : Nat
  /-- The bits read so far. -/
  bits : Nat

/-- What the first byte of a character says. -/
inductive Lead where
  /-- A character of one byte. -/
  | whole (c : Char)
  /-- The start of a longer character. -/
  | start (p : Partial)
  /-- No character starts with this byte. -/
  | fault

/-- The first byte of a character. -/
def lead (b : Nat) : Lead :=
  if b < 0x80 then .whole (Char.ofNat b)
  else if b < 0xc2 then .fault
  else if b < 0xe0 then .start ⟨0, 0x80, 0xbf, b - 0xc0⟩
  else if b = 0xe0 then .start ⟨1, 0xa0, 0xbf, 0⟩
  else if b = 0xed then .start ⟨1, 0x80, 0x9f, b - 0xe0⟩
  else if b < 0xf0 then .start ⟨1, 0x80, 0xbf, b - 0xe0⟩
  else if b = 0xf0 then .start ⟨2, 0x90, 0xbf, 0⟩
  else if b = 0xf4 then .start ⟨2, 0x80, 0x8f, b - 0xf0⟩
  else if b < 0xf4 then .start ⟨2, 0x80, 0xbf, b - 0xf0⟩
  else .fault

/-- The characters of bytes, with `none` for each fault, given a character
begun before them. -/
def decodeFrom : Option Partial → List UInt8 → List (Option Char)
  | none, [] => []
  | some _, [] => [none]
  | none, b :: rest =>
    match lead b.toNat with
    | .whole c => some c :: decodeFrom none rest
    | .start p => decodeFrom (some p) rest
    | .fault => none :: decodeFrom none rest
  | some p, b :: rest =>
    if p.low ≤ b.toNat && b.toNat ≤ p.high then
      let bits := 64 * p.bits + (b.toNat - 0x80)
      match p.more with
      | 0 => some (Char.ofNat bits) :: decodeFrom none rest
      | more + 1 => decodeFrom (some ⟨more, 0x80, 0xbf, bits⟩) rest
    else
      match lead b.toNat with
      | .whole c => none :: some c :: decodeFrom none rest
      | .start p => none :: decodeFrom (some p) rest
      | .fault => none :: none :: decodeFrom none rest

/-- The characters of bytes, with `none` for each fault. -/
def decode (bytes : List UInt8) : List (Option Char) := decodeFrom none bytes

/-- The text of bytes, faults left out. -/
def decodeLossy (bytes : List UInt8) : String :=
  String.ofList ((decode bytes).filterMap id)

/-- The text of bytes, each fault shown as the replacement character. -/
def decodeMarked (bytes : List UInt8) : String :=
  String.ofList ((decode bytes).map (·.getD '�'))

/-- The text of bytes, if they have no fault. -/
def decode? (bytes : List UInt8) : Option String :=
  ((decode bytes).mapM id).map String.ofList

/-- The bytes of a text. -/
def encode (s : String) : List UInt8 := s.toUTF8.toList

end Utf8

end ConstGraph.Text
