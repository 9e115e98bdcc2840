import ResumePress.Json
import ResumePress.Program
import ResumePress.Text.Lines

/-!
Prerequisites: programs that have to answer before a batch is worth starting.
-/

namespace ResumePress

/-- A program to ask for its version, and whether the batch needs it. -/
structure Prerequisite where
  name : String
  program : String
  flag : String
  required : Bool
deriving DecidableEq, Repr

/-- The answer of a program. -/
structure PrerequisiteCheck where
  name : String
  program : String
  passed : Bool
  required : Bool
  detail : Option String
deriving DecidableEq, Repr

namespace PrerequisiteCheck

/-- The record as a value. -/
def toJson (c : PrerequisiteCheck) : Json :=
  .obj [("name", .str c.name), ("program", .str c.program), ("passed", .bool c.passed),
    ("required", .bool c.required), ("detail", .ofText? c.detail)]

/-- Whether every check that is required passed. -/
def requiredPassed (checks : List PrerequisiteCheck) : Bool :=
  checks.all fun c => !c.required || c.passed

end PrerequisiteCheck

namespace Prerequisite

/-- The programs of a batch. -/
def builtin : List Prerequisite :=
  [⟨"XeLaTeX", "xelatex", "--version", true⟩, ⟨"PdfLaTeX", "pdflatex", "--version", true⟩,
    ⟨"Poppler", "pdftoppm", "-v", false⟩]

/-- Whether an answer passes, and the first line or the reason. -/
def verdict : Except ProgramError ProgramOutput → Bool × Option String
  | .ok out =>
    if out.success then (true, (Text.lines out.stdout.toList).head?.map String.ofList)
    else (false, some ("exited with " ++ exitText out.exit))
  | .error e => (false, some e.message)

variable {σ : Type}

/-- Asks a program for its version. -/
def check (programs : Programs σ) (limit : Duration) (p : Prerequisite) :
    Act σ PrerequisiteCheck := do
  let v := verdict (← runProgram programs limit p.program [p.flag])
  return ⟨p.name, p.program, v.1, p.required, v.2⟩

/-- Asks one program after the other. -/
def checkAll (programs : Programs σ) (limit : Duration) :
    List Prerequisite → Act σ (List PrerequisiteCheck)
  | [] => return []
  | p :: rest => do
    let first ← check programs limit p
    return first :: (← checkAll programs limit rest)

end Prerequisite

end ResumePress
