/-!
The digits of numbers in any base, the lowest first.
-/

namespace ResumePress.Text

/-- The last `count` digits of a number, with zeros where it has fewer. -/
def lastDigits (base : Nat) : (count n : Nat) → List Nat
  | 0, _ => []
  | count + 1, n => n % base :: lastDigits base count (n / base)

@[simp] theorem length_lastDigits (base count n : Nat) :
    (lastDigits base count n).length = count := by
  induction count generalizing n with
  | zero => rfl
  | succ count ih => simp [lastDigits, ih]

example : lastDigits 10 4 205 = [5, 0, 2, 0] := by decide

end ResumePress.Text
