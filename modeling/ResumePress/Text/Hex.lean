import ResumePress.Text.Digits

/-!
Bytes as hexadecimal digits, two small digits for each byte.
-/

namespace ResumePress.Text

/-- The digit of a value below sixteen. -/
def hexDigit (n : Nat) : Char :=
  Nat.digitChar (n % 16)

/-- The digits of bytes. -/
def hex (bytes : List UInt8) : String :=
  String.ofList (bytes.flatMap fun b => [hexDigit (b.toNat / 16), hexDigit b.toNat])

/-- The last `count` hexadecimal digits of a number, with leading zeros. -/
def hexPadded (count n : Nat) : String :=
  String.ofList ((lastDigits 16 count n).reverse.map hexDigit)

@[simp] theorem length_hexPadded (count n : Nat) : (hexPadded count n).length = count := by
  simp [hexPadded]

example : hex [0, 255, 16] = "00ff10" := by decide

end ResumePress.Text
