import ResumePress.Json.Record

/-!
The two programs that turn a LaTeX source into a document. Each is the alternate of the other.
-/

namespace ResumePress

/-- A program that compiles documents. -/
inductive TexEngine where
  | xelatex
  | pdflatex
deriving DecidableEq, Repr

namespace TexEngine

/-- The engine of a first attempt. -/
def primary : TexEngine := .xelatex

/-- The other engine. -/
def alternate : TexEngine → TexEngine
  | .xelatex => .pdflatex
  | .pdflatex => .xelatex

/-- The name of the program. -/
def program : TexEngine → String
  | .xelatex => "xelatex"
  | .pdflatex => "pdflatex"

/-- Reads the name of an engine. -/
def ofJson? (value : Json) : Option TexEngine :=
  match value.choice? with
  | some "xelatex" => some .xelatex
  | some "pdflatex" => some .pdflatex
  | _ => none

@[simp] theorem alternate_alternate (e : TexEngine) : e.alternate.alternate = e := by
  cases e <;> rfl

end TexEngine

end ResumePress
