/-
Texts from bytes. Bytes are read as UTF-8; a byte that neither starts nor continues a valid
sequence is read as the replacement character, one for each such byte.
-/
namespace SemFront.Text.Bytes

/-- The character that stands for a byte that cannot be read. -/
def replacement : Char := '�'

/-- A continuation byte. -/
def isTail (b : UInt8) : Bool := 0x80 ≤ b && b ≤ 0xBF

/-- The bytes that may follow the first byte of a sequence of three or four: they rule out
over-long forms, surrogates and values that are too large. -/
def followsFirst (first b : UInt8) : Bool :=
  if first = 0xE0 then 0xA0 ≤ b && b ≤ 0xBF
  else if first = 0xED then 0x80 ≤ b && b ≤ 0x9F
  else if first = 0xF0 then 0x90 ≤ b && b ≤ 0xBF
  else if first = 0xF4 then 0x80 ≤ b && b ≤ 0x8F
  else isTail b

/-- The six payload bits of a continuation byte. -/
def payload (b : UInt8) : Nat := b.toNat % 0x40

/-- The first character of some bytes and the number of bytes it takes. -/
def first (b : UInt8) (bs : List UInt8) : Char × Nat :=
  if b < 0x80 then (Char.ofNat b.toNat, 1)
  else if 0xC2 ≤ b && b ≤ 0xDF then
    match bs with
    | c :: _ => if isTail c then (Char.ofNat (b.toNat % 0x20 * 0x40 + payload c), 2) else (replacement, 1)
    | _ => (replacement, 1)
  else if 0xE0 ≤ b && b ≤ 0xEF then
    match bs with
    | c :: d :: _ =>
      if followsFirst b c && isTail d then
        (Char.ofNat ((b.toNat % 0x10 * 0x40 + payload c) * 0x40 + payload d), 3)
      else (replacement, 1)
    | _ => (replacement, 1)
  else if 0xF0 ≤ b && b ≤ 0xF4 then
    match bs with
    | c :: d :: e :: _ =>
      if followsFirst b c && isTail d && isTail e then
        (Char.ofNat (((b.toNat % 0x08 * 0x40 + payload c) * 0x40 + payload d) * 0x40 + payload e), 4)
      else (replacement, 1)
    | _ => (replacement, 1)
  else (replacement, 1)

/-- The characters of some bytes, after `skip` bytes that belong to the character before. -/
def chars : (skip : Nat) → List UInt8 → List Char
  | _, [] => []
  | skip + 1, _ :: bs => chars skip bs
  | 0, b :: bs => (first b bs).1 :: chars ((first b bs).2 - 1) bs

/-- The text of some bytes. -/
def decode (bs : List UInt8) : String := String.ofList (chars 0 bs)

end SemFront.Text.Bytes
