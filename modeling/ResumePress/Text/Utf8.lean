/-!
Text of bytes. `decode?` reads bytes that are UTF-8 throughout. `decodeLossy` reads any bytes and
puts the replacement character in the place of each longest part that begins a character but does
not complete one, or of a byte that begins none.
-/

namespace ResumePress.Text

/-- The text of bytes that are valid UTF-8. -/
def decode? (bytes : ByteArray) : Option String :=
  String.fromUTF8? bytes

/-- The bytes of a text. -/
def encode (s : String) : ByteArray :=
  s.toUTF8

namespace Utf8

/-- For a byte that begins a character, the ranges of the bytes that have to follow it. -/
def followers (lead : UInt8) : Option (List (UInt8 × UInt8)) :=
  if lead ≤ 0x7F then some []
  else if 0xC2 ≤ lead ∧ lead ≤ 0xDF then some [(0x80, 0xBF)]
  else if lead = 0xE0 then some [(0xA0, 0xBF), (0x80, 0xBF)]
  else if lead = 0xED then some [(0x80, 0x9F), (0x80, 0xBF)]
  else if 0xE1 ≤ lead ∧ lead ≤ 0xEF then some [(0x80, 0xBF), (0x80, 0xBF)]
  else if lead = 0xF0 then some [(0x90, 0xBF), (0x80, 0xBF), (0x80, 0xBF)]
  else if 0xF1 ≤ lead ∧ lead ≤ 0xF3 then some [(0x80, 0xBF), (0x80, 0xBF), (0x80, 0xBF)]
  else if lead = 0xF4 then some [(0x80, 0x8F), (0x80, 0xBF), (0x80, 0xBF)]
  else none

/-- How many bytes at the start of the list fit the ranges one after the other. -/
def fitting : List (UInt8 × UInt8) → List UInt8 → Nat
  | (low, high) :: ranges, b :: bytes =>
    if low ≤ b ∧ b ≤ high then fitting ranges bytes + 1 else 0
  | _, _ => 0

/-- The bits that a lead byte with so many followers gives to its code point. -/
def leadBits (lead : UInt8) (count : Nat) : Nat :=
  lead.toNat %
    if count = 0 then 0x80 else if count = 1 then 0x20 else if count = 2 then 0x10 else 8

/-- Reads the bytes after the first `skip`. -/
def lossyFrom : (skip : Nat) → List UInt8 → List Char
  | _, [] => []
  | skip + 1, _ :: bytes => lossyFrom skip bytes
  | 0, lead :: bytes =>
    match followers lead with
    | none => '\uFFFD' :: lossyFrom 0 bytes
    | some ranges =>
      let count := fitting ranges bytes
      if count = ranges.length then
        let code := (bytes.take count).foldl (fun n b => n * 64 + b.toNat % 64)
          (leadBits lead count)
        Char.ofNat code :: lossyFrom count bytes
      else '\uFFFD' :: lossyFrom count bytes

end Utf8

/-- The text of any bytes. -/
def decodeLossy (bytes : ByteArray) : String :=
  String.ofList (Utf8.lossyFrom 0 bytes.toList)

example : Utf8.lossyFrom 0 [0x41, 0xE2, 0x82, 0x41, 0xFF, 0xC3, 0xA9] =
    ['A', '\uFFFD', 'A', '\uFFFD', 'é'] := by decide

end ResumePress.Text
