/-!
Reading bytes as UTF-8. Reading goes byte by byte; the first sequence that cannot be a character
stops it, and the fault names the bytes that were read of that sequence.
-/
namespace Reckoner.Text.Utf8

/-- Why bytes are no text. -/
inductive Reason where
  /-- The byte begins no character. -/
  | start
  /-- A character was begun and the next byte does not continue it. -/
  | continuation
  /-- The bytes end inside a character. -/
  | ended
  deriving DecidableEq, Repr

/-- The first bytes that are no character: the positions of the first and the last of them. -/
structure Fault where
  first : Nat
  last : Nat
  /-- The byte at the position `first`. -/
  byte : Nat
  reason : Reason
  deriving DecidableEq, Repr

/-- A character that is being read: where it began and with which byte, how many bytes it still
    needs, between which bounds the next one lies, and the bits read so far. -/
structure Begun where
  first : Nat
  byte : Nat
  needed : Nat
  low : Nat
  high : Nat
  bits : Nat

/-- What a first byte above the ASCII range begins. -/
def begin? (position byte : Nat) : Option Begun :=
  if byte < 0xc2 then none
  else if byte < 0xe0 then some ⟨position, byte, 1, 0x80, 0xbf, byte - 0xc0⟩
  else if byte = 0xe0 then some ⟨position, byte, 2, 0xa0, 0xbf, 0⟩
  else if byte = 0xed then some ⟨position, byte, 2, 0x80, 0x9f, 0xd⟩
  else if byte < 0xf0 then some ⟨position, byte, 2, 0x80, 0xbf, byte - 0xe0⟩
  else if byte = 0xf0 then some ⟨position, byte, 3, 0x90, 0xbf, 0⟩
  else if byte < 0xf4 then some ⟨position, byte, 3, 0x80, 0xbf, byte - 0xf0⟩
  else if byte = 0xf4 then some ⟨position, byte, 3, 0x80, 0x8f, 4⟩
  else none

/-- The characters of the bytes from `position` on, inside the character `begun` if there is one. -/
def decodeFrom (position : Nat) : (begun : Option Begun) → List Nat → Except Fault (List Char)
  | none, [] => .ok []
  | some b, [] => .error ⟨b.first, position - 1, b.byte, .ended⟩
  | none, byte :: rest =>
    if byte < 0x80 then (Char.ofNat byte :: ·) <$> decodeFrom (position + 1) none rest
    else
      match begin? position byte with
      | some b => decodeFrom (position + 1) (some b) rest
      | none => .error ⟨position, position, byte, .start⟩
  | some b, byte :: rest =>
    if b.low ≤ byte ∧ byte ≤ b.high then
      let bits := b.bits * 64 + (byte - 0x80)
      if b.needed = 1 then (Char.ofNat bits :: ·) <$> decodeFrom (position + 1) none rest
      else
        let more := { b with needed := b.needed - 1, low := 0x80, high := 0xbf, bits }
        decodeFrom (position + 1) (some more) rest
    else .error ⟨b.first, position - 1, b.byte, .continuation⟩

/-- The characters of a sequence of bytes. -/
def decode (bytes : List Nat) : Except Fault (List Char) := decodeFrom 0 none bytes

end Reckoner.Text.Utf8
