import ResumePress.Text.Range
import ResumePress.Text.Alphanumeric.Table

/-!
Letters and digits of all scripts.
-/

namespace ResumePress.Text

/-- Whether a character is alphabetic or numeric. -/
def isAlphanumeric (c : Char) : Bool :=
  c.isAlphanum || inRanges Alphanumeric.ranges c

/-- A letter or digit of ASCII. -/
def isAsciiAlphanumeric (c : Char) : Bool :=
  c.isAlphanum

end ResumePress.Text
