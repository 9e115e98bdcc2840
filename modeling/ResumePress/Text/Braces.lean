/-!
Fixed texts with many braces. They are written with angle brackets, which stand for the braces.
-/

namespace ResumePress.Text

/-- The character that an angle bracket stands for. -/
def brace (c : Char) : Char :=
  if c = '⟨' then '\x7b' else if c = '⟩' then '\x7d' else c

/-- A text whose angle brackets stand for braces. -/
def withBraces (s : String) : String :=
  String.ofList (s.toList.map brace)

end ResumePress.Text
