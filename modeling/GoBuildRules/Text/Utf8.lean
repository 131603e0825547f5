/-!
# UTF-8

The bytes of a text (`encode`) and the pieces of bytes that need not be well formed (`decode`).
Where the bytes are not UTF-8, `decode` gives one fault for each longest run of bytes that starts a
character and breaks off, or for a single byte that starts none. From it come the reading that
refuses faults (`text?`) and the reading that shows each as U+FFFD (`lossyText`).

The first byte after a lead byte is held to a narrower range where the wider one would admit
overlong forms, surrogates or code points above U+10FFFF.
-/

namespace GoBuildRules.Utf8

/-- The bytes of a text. -/
def encode (s : String) : List UInt8 :=
  s.toList.flatMap String.utf8EncodeChar

/-- What the first byte of a character says about the character. -/
structure Lead where
  /-- How many bytes follow. -/
  tails : Nat
  /-- The least and the greatest byte that may come next. -/
  low : UInt8 := 0x80
  high : UInt8 := 0xbf
  /-- The bits of the code point that the first byte holds. -/
  bits : Nat

/-- The lead of `b`, unless no character starts with `b`. -/
def lead? (b : UInt8) : Option Lead :=
  let n := b.toNat
  if n < 0x80 then some { tails := 0, bits := n }
  else if n < 0xc2 then none
  else if n < 0xe0 then some { tails := 1, bits := n - 0xc0 }
  else if n = 0xe0 then some { tails := 2, low := 0xa0, bits := 0 }
  else if n = 0xed then some { tails := 2, high := 0x9f, bits := 0xd }
  else if n < 0xf0 then some { tails := 2, bits := n - 0xe0 }
  else if n = 0xf0 then some { tails := 3, low := 0x90, bits := 0 }
  else if n < 0xf4 then some { tails := 3, bits := n - 0xf0 }
  else if n = 0xf4 then some { tails := 3, high := 0x8f, bits := 4 }
  else none

/-- Reads `tails` further bytes, the first of them between `low` and `high`, and gives the code
point, or none where they break off, with the bytes that remain. -/
def readTails (low high : UInt8) (bits : Nat) : Nat → List UInt8 → Option Nat × List UInt8
  | 0, bytes => (some bits, bytes)
  | _ + 1, [] => (none, [])
  | tails + 1, b :: bytes =>
    if low ≤ b ∧ b ≤ high then readTails 0x80 0xbf (bits * 64 + b.toNat % 64) tails bytes
    else (none, b :: bytes)

theorem length_readTails_le (low high : UInt8) (bits tails : Nat) (bytes : List UInt8) :
    (readTails low high bits tails bytes).2.length ≤ bytes.length := by
  induction tails generalizing low high bits bytes with
  | zero => simp [readTails]
  | succ tails ih =>
    cases bytes with
    | nil => simp [readTails]
    | cons b bytes =>
      simp only [readTails]
      split
      · exact Nat.le_succ_of_le (ih _ _ _ _)
      · simp

/-- A piece of bytes that need not be UTF-8. -/
inductive Piece where
  | char (c : Char)
  /-- Bytes that are no character. -/
  | fault (bytes : List UInt8)
  deriving DecidableEq, Repr

namespace Piece

/-- The character, unless the piece is a fault. -/
def char? : Piece → Option Char
  | char c => some c
  | fault _ => none

/-- The character, or U+FFFD for a fault. -/
def shown : Piece → Char
  | char c => c
  | fault _ => '\uFFFD'

/-- The bytes of the piece. -/
def bytes : Piece → List UInt8
  | char c => String.utf8EncodeChar c
  | fault bytes => bytes

end Piece

/-- The pieces of the bytes, in order. -/
def decode : List UInt8 → List Piece
  | [] => []
  | b :: bytes =>
    match lead? b with
    | none => .fault [b] :: decode bytes
    | some lead =>
      match h : readTails lead.low lead.high lead.bits lead.tails bytes with
      | (value, rest) =>
        have : rest.length ≤ bytes.length := by
          simpa [h] using length_readTails_le lead.low lead.high lead.bits lead.tails bytes
        let piece := match value with
          | some n => .char (Char.ofNat n)
          | none => .fault (b :: bytes.take (bytes.length - rest.length))
        piece :: decode rest
termination_by bytes => bytes.length

/-- The text of the bytes, if they have no fault. -/
def text? (bytes : List UInt8) : Option String :=
  ((decode bytes).mapM Piece.char?).map String.ofList

/-- The text of the bytes, with U+FFFD for each fault. -/
def lossyText (bytes : List UInt8) : String :=
  String.ofList ((decode bytes).map Piece.shown)

end GoBuildRules.Utf8
