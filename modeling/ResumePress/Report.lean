/-!
Reports of failure: a message and the causes behind it, from the nearest to the deepest.
-/

namespace ResumePress

/-- A message with its causes. -/
structure Report where
  message : String
  causes : List String
deriving DecidableEq, Repr

namespace Report

/-- A message without causes. -/
def plain (message : String) : Report := ⟨message, []⟩

/-- A report that has `r` as its cause. -/
def within (r : Report) (message : String) : Report := ⟨message, r.message :: r.causes⟩

/-- Blanks. -/
def blanks (n : Nat) : List Char := List.replicate n ' '

/-- A cause behind its mark; further lines of it start below its first character. -/
def indented (mark : List Char) (cause : String) : List Char :=
  let lines := cause.toList.flatMap fun c => if c = '\n' then c :: blanks mark.length else [c]
  mark ++ lines ++ ['\n']

/-- The mark of a numbered cause, with the number in at least five columns. -/
def mark (n : Nat) : List Char :=
  let digits := Nat.toDigits 10 n
  blanks (5 - digits.length) ++ digits ++ [':', ' ']

/-- What is printed when a program ends with the report. A single cause is not numbered. -/
def text (r : Report) : String :=
  "Error: " ++ r.message ++ "\n" ++
    match r.causes with
    | [] => ""
    | [cause] => "\nCaused by:\n" ++ String.ofList (indented (blanks 4) cause)
    | causes =>
      "\nCaused by:\n" ++ String.ofList (causes.zipIdx.flatMap fun c => indented (mark c.2) c.1)

example : ((plain "no").within "why").text = "Error: why\n\nCaused by:\n    no\n" := by
  decide +kernel

end Report

end ResumePress
