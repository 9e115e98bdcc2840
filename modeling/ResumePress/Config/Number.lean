import ResumePress.Text.Blank

/-!
Unsigned numbers of 64 bits in decimal. A plus sign may stand in front. Digits are read from the
left, and the first thing that is wrong is reported.
-/

namespace ResumePress.Config

/-- The first number that does not fit. -/
def numberBound : Nat := 18446744073709551616

/-- Why a text is not a number. -/
inductive NumberError where
  | empty
  | invalidDigit
  | tooLarge
deriving DecidableEq, Repr

/-- The wording of an error. -/
def NumberError.message : NumberError → String
  | .empty => "cannot parse integer from empty string"
  | .invalidDigit => "invalid digit found in string"
  | .tooLarge => "number too large to fit in target type"

/-- Reads digits behind a number that is read already. -/
def readDigits (n : Nat) : List Char → Except NumberError Nat
  | [] => .ok n
  | c :: s =>
    if !c.isDigit then .error .invalidDigit
    else
      let next := n * 10 + (c.toNat - '0'.toNat)
      if next < numberBound then readDigits next s else .error .tooLarge

/-- Reads a number. -/
def readNumber (s : List Char) : Except NumberError Nat :=
  match s with
  | [] => .error .empty
  | ['+'] => .error .invalidDigit
  | '+' :: digits => readDigits 0 digits
  | digits => readDigits 0 digits

end ResumePress.Config
