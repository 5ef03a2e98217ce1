/-!
# UTF-8 with replacement

Bytes that ought to be UTF-8 are read without ever failing: a well-formed sequence gives its
character, and every maximal beginning of a sequence that is not carried on, like every byte that
begins none, gives one U+FFFD.

- `Utf8.Sequence`: a sequence that has begun, with the bounds of the byte that may carry it on.
- `Utf8.step`: what one byte yields, and the sequence that is open after it.
- `Utf8.decode`: the characters of a byte string.
-/

namespace MiniLex

namespace Utf8

/-- The character that stands for bytes which are no UTF-8. -/
def replacement : Char := '\uFFFD'

/-- A sequence that has begun: the bits read so far, the number of bytes it still lacks, and the
bounds of the next one. Only the second byte ever has narrower bounds than `80` to `BF`: they keep
out overlong forms, surrogates and values above `10FFFF`. -/
structure Sequence where
  bits : Nat
  lacking : Nat
  low : UInt8
  high : UInt8
deriving DecidableEq

/-- A byte with no sequence open: a character of its own, the first byte of a sequence, or a byte
that no character begins with. -/
def first (b : UInt8) : List Char × Option Sequence :=
  if b < 0x80 then ([Char.ofNat b.toNat], none)
  else if b < 0xC2 then ([replacement], none)
  else if b < 0xE0 then ([], some ⟨b.toNat - 0xC0, 1, 0x80, 0xBF⟩)
  else if b < 0xF0 then
    ([], some ⟨b.toNat - 0xE0, 2, if b = 0xE0 then 0xA0 else 0x80, if b = 0xED then 0x9F else 0xBF⟩)
  else if b < 0xF5 then
    ([], some ⟨b.toNat - 0xF0, 3, if b = 0xF0 then 0x90 else 0x80, if b = 0xF4 then 0x8F else 0xBF⟩)
  else ([replacement], none)

/-- A byte after an open sequence, or after none. A byte that does not carry the sequence on ends
it with one replacement character and is then looked at afresh. -/
def step : Option Sequence → UInt8 → List Char × Option Sequence
  | none, b => first b
  | some s, b =>
    if s.low ≤ b ∧ b ≤ s.high then
      let bits := s.bits * 64 + (b.toNat - 0x80)
      if s.lacking ≤ 1 then ([Char.ofNat bits], none)
      else ([], some ⟨bits, s.lacking - 1, 0x80, 0xBF⟩)
    else (replacement :: (first b).1, (first b).2)

/-- The characters of the bytes that follow an open sequence, or none; a sequence that the end
cuts off gives one replacement character. -/
def decodeFrom : Option Sequence → List UInt8 → List Char
  | none, [] => []
  | some _, [] => [replacement]
  | s, b :: bs => (step s b).1 ++ decodeFrom (step s b).2 bs

/-- The characters of a byte string. -/
def decode (bs : List UInt8) : List Char :=
  decodeFrom none bs

end Utf8

end MiniLex
