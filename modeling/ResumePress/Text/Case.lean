import ResumePress.Text.Range
import ResumePress.Text.Case.Table

/-!
Small letters of a text. Every character is mapped on its own, with two exceptions of the standard:
the capital I with a dot becomes an i and a combining dot, and a capital sigma at the end of a word
becomes the final small sigma.
-/

namespace ResumePress.Text

namespace Case

/-- Letters that have case. -/
def isCased (c : Char) : Bool :=
  inRanges casedRanges c

/-- Characters that are passed over when the neighbours of a sigma are looked at. -/
def isIgnorable (c : Char) : Bool :=
  inRanges ignorableRanges c

/-- The small form of a character by itself. -/
def small (c : Char) : List Char :=
  let n := c.toNat
  if n < 0x80 then [c.toLower]
  else if n = 0x130 then ['i', Char.ofNat 0x307]
  else
    match lowerRuns.find? fun run =>
        run.1 ≤ n && n ≤ run.2.1 && (n - run.1) % run.2.2.1 == 0 with
    | some run => [Char.ofNat (run.2.2.2 + (n - run.1))]
    | none => [c]

/-- Whether the nearest character that is not ignorable has case. -/
def meetsCased (side : List Char) : Bool :=
  match side.dropWhile isIgnorable with
  | c :: _ => isCased c
  | [] => false

/-- Small letters of a text that stands after `before`, which is given from its end. -/
def lowerFrom (before : List Char) : List Char → List Char
  | [] => []
  | c :: s =>
    let letter :=
      if c = 'Σ' then
        if meetsCased before && !meetsCased s then ['ς'] else ['σ']
      else small c
    letter ++ lowerFrom (c :: before) s

end Case

/-- The text in small letters. -/
def lower (s : List Char) : List Char :=
  Case.lowerFrom [] s

end ResumePress.Text
