import ResumePress.Text.Range
import ResumePress.Text.Printable.Table

/-!
Text between double quotes, in a form that shows every character. A quote, a backslash and the
common controls are escaped by a letter; what is not visible or extends the character before it is
written as a code point between braces. The fillers of Hangul are letters but not visible, and the
halfwidth sound marks of Katakana stand on their own although they count as extending.
-/

namespace ResumePress.Text

namespace Quoted

/-- A code point in hexadecimal between braces. -/
def codePoint (c : Char) : List Char :=
  ['\\', 'u', '\x7b'] ++ Nat.toDigits 16 c.toNat ++ ['\x7d']

/-- The four characters that fill the place of a Hangul letter. -/
def isFiller (c : Char) : Bool :=
  let n := c.toNat
  n == 0x115F || n == 0x1160 || n == 0x3164 || n == 0xFFA0

/-- The two halfwidth sound marks of Katakana. -/
def isSoundMark (c : Char) : Bool :=
  c.toNat == 0xFF9E || c.toNat == 0xFF9F

/-- Whether a character cannot be seen by itself. -/
def isConcealed (c : Char) : Bool :=
  inRanges Printable.hiddenRanges c || isFiller c ||
    (inRanges Printable.extendRanges c && !isSoundMark c)

/-- How a character is shown between double quotes. -/
def shown (c : Char) : List Char :=
  match c with
  | '\x00' => ['\\', '0']
  | '\t' => ['\\', 't']
  | '\n' => ['\\', 'n']
  | '\r' => ['\\', 'r']
  | '"' => ['\\', '"']
  | '\\' => ['\\', '\\']
  | c => if isConcealed c then codePoint c else [c]

end Quoted

/-- The text between double quotes. -/
def quoted (s : String) : String :=
  String.ofList ('"' :: s.toList.flatMap Quoted.shown ++ ['"'])

end ResumePress.Text
