import ResumePress.Json.Record
import ResumePress.Text.Find

/-!
Kinds of failed compilations, read off the log. A log that reports something as not found is about
a package if it mentions packages, else about a font if it mentions fonts; every other log is
about the document itself.
-/

namespace ResumePress

/-- What a failed compilation is about. -/
inductive LogKind where
  | packageError
  | fontError
  | compilationError
deriving DecidableEq, Repr

namespace LogKind

/-- The code of a kind. -/
def code : LogKind → String
  | .packageError => "PACKAGE_ERROR"
  | .fontError => "FONT_ERROR"
  | .compilationError => "COMPILATION_ERROR"

/-- Whether something can be installed to mend it. -/
def isActionable : LogKind → Bool
  | .compilationError => false
  | _ => true

/-- The kind of a log. -/
def ofLog (log : String) : LogKind :=
  let mentions (word : String) := Text.contains word.toList log.toList
  if mentions "not found" && mentions "Package" then .packageError
  else if mentions "not found" && mentions "Font" then .fontError
  else .compilationError

/-- Reads the code of a kind. -/
def ofJson? (value : Json) : Option LogKind :=
  match value.choice? with
  | some "PACKAGE_ERROR" => some .packageError
  | some "FONT_ERROR" => some .fontError
  | some "COMPILATION_ERROR" => some .compilationError
  | _ => none

end LogKind

end ResumePress
