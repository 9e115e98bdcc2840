/-!
Lines of a text. A line ends at a line feed, and one carriage return directly before the line feed
goes with it; what follows the last line feed is a line only if it is not empty.
-/

namespace ResumePress.Text

/-- The lines of a text, without their ends. -/
def lines : List Char → List (List Char)
  | [] => []
  | '\n' :: s => [] :: lines s
  | '\r' :: '\n' :: s => [] :: lines s
  | c :: s =>
    match lines s with
    | [] => [[c]]
    | line :: rest => (c :: line) :: rest

/-- Puts `sep` between the parts. -/
def joinWith (sep : List Char) : List (List Char) → List Char
  | [] => []
  | [part] => part
  | part :: parts => part ++ sep ++ joinWith sep parts

example : lines "a\r\nb\rc\n\nd\r".toList = ["a".toList, "b\rc".toList, [], "d\r".toList] := by
  decide

end ResumePress.Text
